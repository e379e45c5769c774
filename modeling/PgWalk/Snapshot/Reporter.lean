import PgWalk.Snapshot.Progress
import PgWalk.Tracker.WriteQueue

/-! The reporter of a snapshot's progress, between those who report and the one who reads. -/

namespace PgWalk

open List Option

namespace Reporter

/-- A report as it is put into the queue. -/
structure Progress where
  kind : String
  tableName : String
  rowsProcessed : Int
  totalRows : Int
  maxLSN : Nat
  tasksCount : Nat
deriving DecidableEq

/-- Every report counts as one. -/
def Progress.size (_ : Progress) : Nat := 1

/-- The kind of the report with which the reporter is closed. -/
def stopKind : String := "stop"

def stopReport : Progress := ⟨stopKind, "", 0, 0, 0, 0⟩

/-- A report of the snapshot in the form in which the reporter gets it. -/
def ofReport : ProgressReport → Progress
  | .maxLSN tableName lsn => ⟨"max_lsn", tableName, 0, 0, lsn, 0⟩
  | .taskDone tableName => ⟨"task_done", tableName, 0, 0, 0, 0⟩
  | .rangeDone tableName rowsProcessed => ⟨"range_done", tableName, rowsProcessed, 0, 0, 0⟩
  | .lsnAck lsn => ⟨"lsn_ack", "", 0, 0, lsn, 0⟩
  | .tableStarted tableName totalRows => ⟨"table_start", tableName, 0, totalRows, 0, 0⟩
  | .tableDispatched tableName tasksCount => ⟨"table_done", tableName, 0, 0, 0, tasksCount⟩

/-- The calls of those who report. -/
inductive Call
  | report (progress : Progress)
  | close
deriving DecidableEq

/-- Where the goroutine that holds the lock stands in its call. -/
inductive Inside
  | locked (call : Call)
  | pushing (progress : Progress)
  | unlocking

/-- Where the goroutine that dispatches reports stands. -/
inductive Dispatcher
  | popping
  -- It sleeps until something is pushed.
  | waiting
  | sending (progress : Progress)
  -- It has left the loop, and the channel is about to be closed.
  | returning
  | returned
deriving DecidableEq

/-- The reporter with everybody who uses it. -/
structure State where
  -- The goroutine that holds the lock, if any.
  mu : Option (Nat × Inside)
  closed : Bool
  queue : WriteQueue Progress
  ch : List Progress
  -- How often the channel has been closed.
  closes : Nat
  dispatcher : Dispatcher
  -- The call with which each goroutine waits for the lock.
  calls : Nat → Option Call
  -- The calls in the order in which they acquired the lock.
  acquired : List Call
  -- What the channel has yielded.
  received : List Progress
  -- Whether the reader has seen that the channel is closed.
  ended : Bool

/-- A reporter that nobody has used, with its dispatcher running. -/
def start : State := ⟨none, false, .new, [], 0, .popping, fun _ => none, [], [], false⟩

/-- The atomic steps of the goroutines. -/
inductive Label
  | enter (caller : Nat) (call : Call)
  | lock (caller : Nat)
  | check
  | push
  | unlock
  | pop
  | send
  -- Without a place in the channel's buffer the value goes to the reader directly.
  | handOff
  | close
  | receive
  | finish

/-- A pushed report wakes the dispatcher if it sleeps. -/
def Dispatcher.signal : Dispatcher → Dispatcher
  | .waiting => .popping
  | other => other

variable (closed : Bool)

/-- What the goroutine with the lock does after the test of the flag. -/
def check : Call → Bool × Inside
  | .report progress => (closed, if closed then .unlocking else .pushing progress)
  | .close => (true, if closed then .unlocking else .pushing stopReport)

/--
One step, with contexts that are not cancelled. The lock of the queue makes a push one step, and
also a pop with the decision to sleep.
-/
def step (bufferSize : Nat) (s : State) : Label → Option State
  | .enter caller call =>
    if s.calls caller = none ∧ s.mu.map Prod.fst ≠ some caller then
      some { s with calls := Function.update s.calls caller (some call) }
    else none
  | .lock caller =>
    match s.mu, s.calls caller with
    | none, some call => some { s with
        mu := some (caller, .locked call)
        calls := Function.update s.calls caller none
        acquired := s.acquired ++ [call] }
    | _, _ => none
  | .check =>
    match s.mu with
    | some (caller, .locked call) => some { s with
        closed := (check s.closed call).1
        mu := some (caller, (check s.closed call).2) }
    | _ => none
  | .push =>
    match s.mu with
    | some (caller, .pushing progress) => some { s with
        queue := s.queue.push Progress.size progress
        dispatcher := s.dispatcher.signal
        mu := some (caller, .unlocking) }
    | _ => none
  | .unlock =>
    match s.mu with
    | some (_, .unlocking) => some { s with mu := none }
    | _ => none
  | .pop =>
    match s.dispatcher, s.queue.pop Progress.size with
    | .popping, none => some { s with dispatcher := .waiting }
    | .popping, some (progress, queue) => some { s with
        queue := queue
        dispatcher := if progress.kind = stopKind then .returning else .sending progress }
    | _, _ => none
  | .send =>
    match s.dispatcher with
    | .sending progress =>
      if s.ch.length < bufferSize then
        some { s with ch := s.ch ++ [progress], dispatcher := .popping }
      else none
    | _ => none
  | .handOff =>
    match s.dispatcher, s.ch with
    | .sending progress, [] =>
      some { s with received := s.received ++ [progress], dispatcher := .popping }
    | _, _ => none
  | .close =>
    match s.dispatcher with
    | .returning => some { s with closes := s.closes + 1, dispatcher := .returned }
    | _ => none
  | .receive =>
    match s.ch with
    | progress :: rest => some { s with received := s.received ++ [progress], ch := rest }
    | [] => none
  | .finish =>
    -- A closed channel yields what is left in its buffer first.
    if 0 < s.closes ∧ s.ch = [] ∧ s.ended = false then some { s with ended := true } else none

/-- Everything that a step can do. -/
inductive Stepped (s : State) : Label → State → Prop
  | enter (caller : Nat) (call : Call) : Stepped s (.enter caller call)
      { s with calls := Function.update s.calls caller (some call) }
  | lock (caller : Nat) (call : Call) : s.mu = none → s.calls caller = some call →
      Stepped s (.lock caller) { s with
        mu := some (caller, .locked call)
        calls := Function.update s.calls caller none
        acquired := s.acquired ++ [call] }
  | check (caller : Nat) (call : Call) : s.mu = some (caller, .locked call) →
      Stepped s .check { s with
        closed := (check s.closed call).1
        mu := some (caller, (check s.closed call).2) }
  | push (caller : Nat) (progress : Progress) : s.mu = some (caller, .pushing progress) →
      Stepped s .push { s with
        queue := s.queue.push Progress.size progress
        dispatcher := s.dispatcher.signal
        mu := some (caller, .unlocking) }
  | unlock (caller : Nat) : s.mu = some (caller, .unlocking) →
      Stepped s .unlock { s with mu := none }
  | sleep : s.dispatcher = .popping → s.queue.pop Progress.size = none →
      Stepped s .pop { s with dispatcher := .waiting }
  | pop (progress : Progress) (queue : WriteQueue Progress) : s.dispatcher = .popping →
      s.queue.pop Progress.size = some (progress, queue) →
      Stepped s .pop { s with
        queue := queue
        dispatcher := if progress.kind = stopKind then .returning else .sending progress }
  | send (progress : Progress) : s.dispatcher = .sending progress →
      Stepped s .send { s with ch := s.ch ++ [progress], dispatcher := .popping }
  | handOff (progress : Progress) : s.dispatcher = .sending progress → s.ch = [] →
      Stepped s .handOff { s with received := s.received ++ [progress], dispatcher := .popping }
  | close : s.dispatcher = .returning →
      Stepped s .close { s with closes := s.closes + 1, dispatcher := .returned }
  | receive (progress : Progress) (rest : List Progress) : s.ch = progress :: rest →
      Stepped s .receive { s with received := s.received ++ [progress], ch := rest }
  | finish : 0 < s.closes → s.ch = [] → s.ended = false → Stepped s .finish { s with ended := true }

/-- Every step is one of those listed. -/
theorem stepped {bufferSize : Nat} {s next : State} {label : Label}
    (taken : step bufferSize s label = some next) : Stepped s label next := by
  -- Each label is enabled in one phase only.
  cases label with
  | enter caller call =>
    obtain ⟨-, entered⟩ := ite_none_right_eq_some.mp taken
    exact some.inj entered ▸ .enter caller call
  | lock caller =>
    simp only [step] at taken
    split at taken
    · rename_i call free calling
      cases taken
      exact .lock caller call free calling
    · cases taken
  | check =>
    simp only [step] at taken
    split at taken
    · rename_i caller call held
      cases taken
      exact .check caller call held
    · cases taken
  | push =>
    simp only [step] at taken
    split at taken
    · rename_i caller progress held
      cases taken
      exact .push caller progress held
    · cases taken
  | unlock =>
    simp only [step] at taken
    split at taken
    · rename_i caller held
      cases taken
      exact .unlock caller held
    · cases taken
  | pop =>
    simp only [step] at taken
    split at taken
    · rename_i at_ empty
      cases taken
      exact .sleep at_ empty
    · rename_i progress queue at_ popped
      cases taken
      exact .pop progress queue at_ popped
    · cases taken
  | send =>
    simp only [step] at taken
    split at taken
    · rename_i progress at_
      obtain ⟨-, sent⟩ := ite_none_right_eq_some.mp taken
      exact some.inj sent ▸ .send progress at_
    · cases taken
  | handOff =>
    simp only [step] at taken
    split at taken
    · rename_i progress at_ empty
      cases taken
      exact .handOff progress at_ empty
    · cases taken
  | close =>
    simp only [step] at taken
    split at taken
    · rename_i at_
      cases taken
      exact .close at_
    · cases taken
  | receive =>
    simp only [step] at taken
    split at taken
    · rename_i progress rest buffer
      cases taken
      exact .receive progress rest buffer
    · cases taken
  | finish =>
    obtain ⟨⟨closed, empty, reading⟩, ended⟩ := ite_none_right_eq_some.mp taken
    exact some.inj ended ▸ .finish closed empty reading

/-- The reports that locked before the first call that closes. -/
def beforeClose : List Call → List Progress
  | .report progress :: rest => progress :: beforeClose rest
  | _ => []

variable {calls : List Call}

theorem beforeClose_closed (closed : .close ∈ calls) (later : List Call) :
    beforeClose (calls ++ later) = beforeClose calls := by
  induction calls with
  | nil => cases closed
  | cons call rest ih =>
    cases call with
    | report progress =>
      have closed : .close ∈ rest := by simpa using closed
      rw [cons_append, beforeClose, beforeClose, ih closed]
    | close => rfl

theorem beforeClose_open (open_ : .close ∉ calls) (later : List Call) :
    beforeClose (calls ++ later) = beforeClose calls ++ beforeClose later := by
  induction calls with
  | nil => rfl
  | cons call rest ih =>
    cases call with
    | report progress =>
      have open_ : .close ∉ rest := by simpa using open_
      rw [cons_append, beforeClose, beforeClose, ih open_, cons_append]
    | close => exact absurd mem_cons_self open_

theorem mem_of_mem_beforeClose {progress : Progress} (member : progress ∈ beforeClose calls) :
    .report progress ∈ calls := by
  induction calls with
  | nil => cases member
  | cons call rest ih =>
    cases call with
    | report first =>
      rcases mem_cons.mp member with rfl | later
      · exact mem_cons_self
      · exact mem_cons_of_mem _ (ih later)
    | close => cases member

/-- What the goroutine with the lock is going to push. -/
def pending : Option (Nat × Inside) → List Progress
  | some (_, .locked (.report progress)) => if closed then [] else [progress]
  | some (_, .pushing progress) => [progress]
  | _ => []

@[simp]
theorem pending_free : pending closed none = [] := rfl

@[simp]
theorem pending_close (caller : Nat) : pending closed (some (caller, .locked .close)) = [] := rfl

/-- The report the dispatcher has taken; the last one stays with it. -/
def Dispatcher.carries : Dispatcher → List Progress
  | .sending progress => [progress]
  | .returning => [stopReport]
  | .returned => [stopReport]
  | _ => []

/-- All reports on their way, from the arrived to the one being pushed. -/
def State.line (s : State) : List Progress :=
  s.received ++ s.ch ++ s.dispatcher.carries ++ s.queue.items ++ pending s.closed s.mu

/-- The report that follows all others once the reporter is closed. -/
def stopAfter : List Progress := if closed then [stopReport] else []

end Reporter

end PgWalk
