import PgWalk.Redis.Pipeline

/-! A writer with its flush workers, from the start of its loop to its shutdown. -/

namespace PgWalk

open List Option

open Redis (FlushOptions)

/-- What a writer's loop does with rows: which batches, and when. -/
structure Collector (Entry Buffers Batch : Type) where
  empty : Buffers
  -- Take a row in. Buffers that are full are flushed.
  append : Buffers → Entry → Buffers × List Batch
  -- Flush what there is when the ticker ticks.
  flushAll : Buffers → Buffers × List Batch

inductive RunWorker (Batch : Type)
  -- The flush workers are not there yet.
  | starting
  | selecting
  -- A batch is being submitted, with others behind it.
  | submitting (batch : Batch) (rest : List Batch)
  | returned

/-- Submit batches one after the other, or go on when there are none. -/
def RunWorker.submitAll {Batch : Type} : List Batch → RunWorker Batch
  | [] => .selecting
  | batch :: rest => .submitting batch rest

def RunWorker.pending {Batch : Type} : RunWorker Batch → List Batch
  | .submitting batch rest => batch :: rest
  | _ => []

inductive FlushWorker (Batch : Type)
  | selecting
  | handling (batch : Batch)
  | returned

def FlushWorker.isReturned {Batch : Type} : FlushWorker Batch → Bool
  | .returned => true
  | _ => false

inductive Shutdown
  | notCalled
  -- The loop is told to stop.
  | closed
  -- The flush workers are told to stop, and then waited for.
  | waitingWorkers
  -- The loop is waited for.
  | waiting
  | returned
deriving DecidableEq

/-- A writer, its flush workers and its shutdown; channels are oldest first. -/
structure WriterState (Entry Buffers Batch : Type) where
  flush : FlushOptions
  eventCh : List Entry
  buffers : Buffers
  isTimerRunning : Bool
  -- Whether the ticker is going to tick.
  ticker : Bool
  runWorker : RunWorker Batch
  requestCh : List Batch
  workers : Nat → FlushWorker Batch
  -- Which of the channels that only signal are closed.
  ctxDone : Bool
  closeCh : Bool
  doneCh : Bool
  shutdown : Shutdown

inductive WriterLabel (Entry : Type)
  -- From outside: a row, the end of the context, and the shutdown.
  | send (entry : Entry)
  | cancel
  | gracefulShutdown
  -- The loop.
  | newFlushWorkers
  | onDone
  | onClose
  | receive
  | tick
  | submit
  -- A flush worker.
  | take (workerID : Nat)
  | handled (workerID : Nat)
  | done (workerID : Nat)
  -- The shutdown, behind its first statement.
  | close
  | ioStopped
  | stopped

/-- Whether a step is the loop's, a flush worker's or the shutdown's. -/
def WriterLabel.isInternal {Entry : Type} : WriterLabel Entry → Bool
  | .send _ | .cancel | .gracefulShutdown => false
  | _ => true

variable {Entry Buffers Batch : Type}

namespace WriterState

variable (collector : Collector Entry Buffers Batch)

/-- The loop is started, and its workers wait for batches. -/
def start (flush : FlushOptions) : WriterState Entry Buffers Batch where
  flush := flush
  eventCh := []
  buffers := collector.empty
  isTimerRunning := false
  ticker := true
  runWorker := .starting
  requestCh := []
  workers := fun _ => .selecting
  ctxDone := false
  closeCh := false
  doneCh := false
  shutdown := .notCalled

variable (s : WriterState Entry Buffers Batch)

def HasWorker (workerID : Nat) : Prop :=
  1 ≤ workerID ∧ workerID ≤ s.flush.numWorkers

/-- Whether a number is one of a flush worker can be computed. -/
instance (s : WriterState Entry Buffers Batch) (workerID : Nat) :
    Decidable (s.HasWorker workerID) :=
  inferInstanceAs (Decidable (_ ∧ _))

/-- Whether all flush workers are gone. -/
def allReturned : Bool :=
  (List.range' 1 s.flush.numWorkers).all fun workerID => (s.workers workerID).isReturned

/-- The loop takes a row. -/
def receive (entry : Entry) (rest : List Entry) : WriterState Entry Buffers Batch :=
  let (buffers, batches) := collector.append s.buffers entry
  { s with
    eventCh := rest
    buffers := buffers
    isTimerRunning := true
    -- The ticker is set going again where it was stopped.
    ticker := s.ticker || !s.isTimerRunning
    runWorker := .submitAll batches }

def tick : WriterState Entry Buffers Batch :=
  let (buffers, batches) := collector.flushAll s.buffers
  { s with
    buffers := buffers
    isTimerRunning := false
    ticker := false
    runWorker := .submitAll batches }

def setWorker (workerID : Nat) (worker : FlushWorker Batch) : WriterState Entry Buffers Batch :=
  { s with workers := Function.update s.workers workerID worker }

def step : WriterLabel Entry → Option (WriterState Entry Buffers Batch)
  | .send entry =>
    if s.eventCh.length < s.flush.queueDepth then some { s with eventCh := s.eventCh ++ [entry] }
    else none
  | .cancel => some { s with ctxDone := true }
  | .gracefulShutdown =>
    if s.shutdown = .notCalled then some { s with closeCh := true, shutdown := .closed } else none
  | .newFlushWorkers => match s.runWorker with
    | .starting => some { s with runWorker := .selecting }
    | _ => none
  | .onDone => match s.runWorker with
    | .selecting => if s.ctxDone then some { s with runWorker := .returned } else none
    | _ => none
  | .onClose => match s.runWorker with
    | .selecting => if s.closeCh then some { s with runWorker := .returned } else none
    | _ => none
  | .receive => match s.runWorker, s.eventCh with
    | .selecting, entry :: rest => some (s.receive collector entry rest)
    | _, _ => none
  | .tick => match s.runWorker with
    | .selecting => if s.ticker then some (s.tick collector) else none
    | _ => none
  | .submit => match s.runWorker with
    | .submitting batch rest =>
      if s.requestCh.length < s.flush.numWorkers then
        some { s with requestCh := s.requestCh ++ [batch], runWorker := .submitAll rest }
      else none
    | _ => none
  | .take workerID =>
    if s.HasWorker workerID then match s.workers workerID, s.requestCh with
      | .selecting, batch :: rest =>
        some ({ s with requestCh := rest }.setWorker workerID (.handling batch))
      | _, _ => none
    else none
  | .handled workerID =>
    if s.HasWorker workerID then match s.workers workerID with
      -- The handler always returns, and its error is only logged.
      | .handling _ => some (s.setWorker workerID .selecting)
      | _ => none
    else none
  | .done workerID =>
    if s.HasWorker workerID then match s.workers workerID with
      | .selecting => if s.doneCh then some (s.setWorker workerID .returned) else none
      | _ => none
    else none
  | .close =>
    if s.shutdown = .closed then
      match s.runWorker with
      -- There are no flush workers that could be told to stop.
      | .starting => some { s with shutdown := .waiting }
      | _ => some { s with doneCh := true, shutdown := .waitingWorkers }
    else none
  | .ioStopped =>
    if s.shutdown = .waitingWorkers ∧ s.allReturned then some { s with shutdown := .waiting }
    else none
  | .stopped => match s.shutdown, s.runWorker with
    | .waiting, .returned => some { s with shutdown := .returned }
    | _, _ => none

/-- A step leaves room for the loop's batches once none will be taken. -/
def LeavesRoom : WriterLabel Entry → Prop
  | .done workerID =>
    (∀ other, s.HasWorker other → other ≠ workerID → s.workers other = .returned) →
      s.runWorker.pending.length + s.requestCh.length ≤ s.flush.numWorkers
  | .receive => s.allReturned = true → ∀ entry ∈ s.eventCh.head?,
      (collector.append s.buffers entry).2.length + s.requestCh.length ≤ s.flush.numWorkers
  | .tick => s.allReturned = true →
      (collector.flushAll s.buffers).2.length + s.requestCh.length ≤ s.flush.numWorkers
  | _ => True

/-- A shutdown that has not returned can go on, alone or after others. -/
def Progresses : Prop :=
  s.shutdown ≠ .notCalled → s.shutdown ≠ .returned →
    ∃ label : WriterLabel Entry, label.isInternal = true ∧ (s.step collector label).isSome = true

variable {collector : Collector Entry Buffers Batch} {s next : WriterState Entry Buffers Batch}
  {label : WriterLabel Entry}

/-- There is at least one flush worker. -/
theorem numWorkers_pos (s : WriterState Entry Buffers Batch) : 0 < s.flush.numWorkers := by
  rw [FlushOptions.numWorkers]
  split
  · exact Nat.one_pos
  · omega

/-- All flush workers are gone when each of them is. -/
theorem allReturned_iff : s.allReturned = true ↔
    ∀ workerID, s.HasWorker workerID → s.workers workerID = .returned := by
  have gone : ∀ worker : FlushWorker Batch, worker.isReturned = true ↔ worker = .returned := by
    intro worker
    cases worker <;> simp [FlushWorker.isReturned]
  simp only [allReturned, List.all_eq_true, mem_range'_1, gone, HasWorker]
  constructor
  · intro all workerID known
    exact all workerID ⟨known.1, by omega⟩
  · intro all workerID known
    exact all workerID ⟨known.1, by omega⟩

/-- If not all flush workers are gone, one is left. -/
theorem exists_worker (some_left : ¬ s.allReturned = true) :
    ∃ workerID, s.HasWorker workerID ∧ s.workers workerID ≠ .returned := by
  rw [allReturned_iff] at some_left
  push Not at some_left
  exact some_left

/-- Batches that are to be submitted are pending. -/
@[simp] theorem pending_submitAll (batches : List Batch) :
    (RunWorker.submitAll batches).pending = batches := by
  cases batches <;> rfl

/-- What holds of signals and room in every state of a writer. -/
structure ShutdownInv (s : WriterState Entry Buffers Batch) : Prop where
  signalled : s.shutdown ≠ .notCalled → s.closeCh = true
  ioSignalled : s.shutdown = .waitingWorkers → s.doneCh = true
  room : s.allReturned = true → s.runWorker.pending.length + s.requestCh.length ≤ s.flush.numWorkers

namespace ShutdownInv

/-- Nothing is signalled and nothing waits at the start. -/
theorem start (collector : Collector Entry Buffers Batch) (flush : FlushOptions) :
    ShutdownInv (WriterState.start collector flush) where
  signalled called := absurd rfl called
  ioSignalled := nofun
  room _ := Nat.zero_le _

variable {runWorker : RunWorker Batch} {requestCh : List Batch} {workerID : Nat}

/-- The loop may move as long as its batches have room. -/
theorem moveLoop (inv : ShutdownInv s) {eventCh : List Entry} {buffers : Buffers}
    {isTimerRunning ticker : Bool}
    (room : s.allReturned = true →
      runWorker.pending.length + requestCh.length ≤ s.flush.numWorkers) : ShutdownInv { s with
      eventCh := eventCh, buffers := buffers, isTimerRunning := isTimerRunning, ticker := ticker
      runWorker := runWorker, requestCh := requestCh } :=
  ⟨inv.signalled, inv.ioSignalled, room⟩

/-- The loop may stop submitting. -/
theorem moveIdle (inv : ShutdownInv s) (nothing : runWorker.pending = []) :
    ShutdownInv { s with runWorker := runWorker } := by
  refine inv.moveLoop fun all => ?_
  have before := inv.room all
  rw [nothing, length_nil]
  omega

/-- A flush worker may go on working. -/
theorem moveWorker (inv : ShutdownInv s) (known : s.HasWorker workerID)
    {worker : FlushWorker Batch} (atWork : worker ≠ .returned) :
    ShutdownInv ({ s with requestCh := requestCh }.setWorker workerID worker) := by
  refine ⟨inv.signalled, inv.ioSignalled, fun all => ?_⟩
  have gone := allReturned_iff.mp all workerID known
  simp only [setWorker, Function.update_self] at gone
  exact absurd gone atWork

/-- Every step that leaves room keeps what the shutdown needs. -/
theorem step (inv : ShutdownInv s) (leaves : s.LeavesRoom collector label)
    (taken : s.step collector label = some next) : ShutdownInv next := by
  -- The signals follow the shutdown's steps, the room those of loop and workers.
  cases label with
  | send entry =>
    obtain ⟨-, done⟩ := ite_none_right_eq_some.mp taken
    cases done
    exact inv.moveLoop inv.room
  | cancel =>
    cases taken
    exact ⟨inv.signalled, inv.ioSignalled, inv.room⟩
  | gracefulShutdown =>
    obtain ⟨-, done⟩ := ite_none_right_eq_some.mp taken
    cases done
    exact ⟨fun _ => rfl, nofun, inv.room⟩
  | newFlushWorkers =>
    simp only [WriterState.step] at taken
    split at taken
    · cases taken
      exact inv.moveIdle rfl
    · cases taken
  | onDone | onClose =>
    simp only [WriterState.step] at taken
    split at taken
    · obtain ⟨-, done⟩ := ite_none_right_eq_some.mp taken
      cases done
      exact inv.moveIdle rfl
    · cases taken
  | receive =>
    simp only [WriterState.step] at taken
    split at taken
    · rename_i entry rest loop waiting
      cases taken
      refine inv.moveLoop fun all => ?_
      rw [pending_submitAll]
      exact leaves all entry (by rw [waiting]; rfl)
    · cases taken
  | tick =>
    simp only [WriterState.step] at taken
    split at taken
    · obtain ⟨-, done⟩ := ite_none_right_eq_some.mp taken
      cases done
      refine inv.moveLoop fun all => ?_
      rw [pending_submitAll]
      exact leaves all
    · cases taken
  | submit =>
    simp only [WriterState.step] at taken
    split at taken
    · rename_i batch rest loop
      obtain ⟨-, done⟩ := ite_none_right_eq_some.mp taken
      cases done
      -- A batch moves from the loop to the channel.
      refine inv.moveLoop fun all => ?_
      have before := inv.room all
      rw [loop, RunWorker.pending, length_cons] at before
      rw [pending_submitAll, length_append, length_singleton]
      omega
    · cases taken
  | take workerID | handled workerID =>
    obtain ⟨known, taken⟩ := ite_none_right_eq_some.mp taken
    split at taken
    · cases taken
      exact inv.moveWorker known nofun
    · cases taken
  | done workerID =>
    obtain ⟨known, taken⟩ := ite_none_right_eq_some.mp taken
    split at taken
    · obtain ⟨-, done⟩ := ite_none_right_eq_some.mp taken
      cases done
      refine ⟨inv.signalled, inv.ioSignalled, fun all => leaves fun other has differs => ?_⟩
      -- All others have been gone before this one.
      have gone := allReturned_iff.mp all other has
      simpa [setWorker, Function.update_of_ne differs] using gone
    · cases taken
  | close =>
    obtain ⟨closed, taken⟩ := ite_none_right_eq_some.mp taken
    have signalled := inv.signalled (by rw [closed]; nofun)
    split at taken
    · cases taken
      exact ⟨fun _ => signalled, nofun, inv.room⟩
    · cases taken
      exact ⟨fun _ => signalled, fun _ => rfl, inv.room⟩
  | ioStopped =>
    obtain ⟨⟨waiting, -⟩, done⟩ := ite_none_right_eq_some.mp taken
    cases done
    exact ⟨fun _ => inv.signalled (by rw [waiting]; nofun), nofun, inv.room⟩
  | stopped =>
    simp only [WriterState.step] at taken
    split at taken
    · rename_i waiting loop
      cases taken
      exact ⟨fun _ => inv.signalled (by rw [waiting]; nofun), nofun, inv.room⟩
    · cases taken

/-- A flush worker that is told to stop or has a batch to take can go on. -/
theorem worker_enabled (known : s.HasWorker workerID) (atWork : s.workers workerID ≠ .returned)
    (woken : s.doneCh = true ∨ s.requestCh ≠ []) :
    ∃ label : WriterLabel Entry, label.isInternal = true ∧
      (s.step collector label).isSome = true := by
  cases worker : s.workers workerID with
  | selecting =>
    rcases woken with told | waiting
    · exact ⟨.done workerID, rfl, by simp [WriterState.step, known, worker, told]⟩
    · obtain ⟨batch, rest, queue⟩ := exists_cons_of_ne_nil waiting
      exact ⟨.take workerID, rfl, by simp [WriterState.step, known, worker, queue]⟩
  | handling batch => exact ⟨.handled workerID, rfl, by simp [WriterState.step, known, worker]⟩
  | returned => exact absurd worker atWork

/-- Signals and room are enough for the shutdown to go on. -/
theorem progresses (inv : ShutdownInv s) : s.Progresses collector := by
  -- What the shutdown waits for tells who can go on.
  intro begun unfinished
  have told := inv.signalled begun
  cases phase : s.shutdown with
  | notCalled => exact absurd phase begun
  | returned => exact absurd phase unfinished
  | closed =>
    refine ⟨.close, rfl, ?_⟩
    cases loop : s.runWorker <;> simp [WriterState.step, phase, loop]
  | waitingWorkers =>
    by_cases all : s.allReturned = true
    · exact ⟨.ioStopped, rfl, by simp [WriterState.step, phase, all]⟩
    · obtain ⟨workerID, known, atWork⟩ := exists_worker all
      exact worker_enabled known atWork (.inl (inv.ioSignalled phase))
  | waiting =>
    cases loop : s.runWorker with
    | starting => exact ⟨.newFlushWorkers, rfl, by simp [WriterState.step, loop]⟩
    | selecting => exact ⟨.onClose, rfl, by simp [WriterState.step, loop, told]⟩
    | returned => exact ⟨.stopped, rfl, by simp [WriterState.step, phase, loop]⟩
    | submitting batch rest =>
      by_cases free : s.requestCh.length < s.flush.numWorkers
      · exact ⟨.submit, rfl, by simp [WriterState.step, loop, free]⟩
      -- The channel is full, so somebody is left to make room.
      have someLeft : ¬ s.allReturned = true := by
        intro all
        have fits := inv.room all
        rw [loop, RunWorker.pending, length_cons] at fits
        omega
      obtain ⟨workerID, known, atWork⟩ := exists_worker someLeft
      refine worker_enabled known atWork (.inr fun empty => ?_)
      have positive := s.numWorkers_pos
      rw [empty, length_nil] at free
      exact free positive

end ShutdownInv

/-- A loop waiting for room that nobody makes stops the shutdown. -/
theorem not_progresses (phase : s.shutdown = .waiting) {batch : Batch} {rest : List Batch}
    (loop : s.runWorker = .submitting batch rest)
    (full : s.flush.numWorkers ≤ s.requestCh.length) (all : s.allReturned = true) :
    ¬ s.Progresses collector := by
  intro progresses
  obtain ⟨label, internal, enabled⟩ := progresses (by rw [phase]; nofun) (by rw [phase]; nofun)
  have gone : ∀ {workerID : Nat}, s.HasWorker workerID → s.workers workerID = .returned :=
    fun known => allReturned_iff.mp all _ known
  cases label with
  | send entry => cases internal
  | cancel => cases internal
  | gracefulShutdown => cases internal
  | take workerID | handled workerID | done workerID =>
    by_cases known : s.HasWorker workerID <;> simp [step, known, gone] at enabled
  | submit => simp [step, loop, Nat.not_lt.mpr full] at enabled
  | _ => simp [step, loop, phase] at enabled

/-- A run that leaves room never stops the shutdown. -/
theorem progresses_of_leavesRoom {flush : FlushOptions} {labels : List (WriterLabel Entry)}
    (admitted : Runs.Along (step collector) (LeavesRoom collector) (start collector flush) labels)
    (reached : Runs.run (step collector) (start collector flush) labels = some s) :
    s.Progresses collector := by
  have inv : ShutdownInv s :=
    @Runs.invariant _ _ _ _ ShutdownInv
      (fun _ _ _ inv leaves taken => inv.step leaves taken) _ _ _
      (.start collector flush) admitted reached
  exact inv.progresses

end WriterState

end PgWalk
