import PgWalk.Snapshot.Completion

/-! Who may still send errors when a snapshot run closes the channel for them. -/

namespace PgWalk

open SnapshotRun Option

variable {V : Type}

/--
A snapshot run in which the loop tests whether to look at a table before it looks, and then looks
whatever has happened in between.
-/
structure TestedRun (V : Type) where
  run : SnapshotRun V
  -- Whether the loop has passed the tests for the table it is at.
  visiting : Bool

def TestedRun.start (job : SnapshotJob) (config : RetryConfig) : TestedRun V :=
  ⟨.start job config, false⟩

/-- A test of the loop, or a step of anyone. -/
inductive TestedOp (V : Type)
  | test
  | op (op : SnapshotOp V)

namespace TestedRun

/-- The loop makes its tests for a table. -/
def test (job : SnapshotJob) (s : TestedRun V) : Option (TestedRun V) :=
  match s.run.loop, s.visiting with
  | .looking index, false => some ((s.run.passesOver job index).elim { s with visiting := true }
      fun loop => { s with run := { s.run with loop := loop } })
  | _, _ => none

/-- The next step of the loop behind its tests. -/
def loop (job : SnapshotJob) (s : TestedRun V) (outcome : PlanOutcome) : Option (TestedRun V) :=
  match s.run.loop, s.visiting with
  | .looking index, true => (s.run.visit job index outcome).map fun run => ⟨run, false⟩
  | .looking _, false => none
  | _, _ => (s.run.runSnapshotLoop job outcome).map fun run => { s with run := run }

end TestedRun

/-- One step. A panic ends everything. -/
def testedStep (job : SnapshotJob) (s : TestedRun V) : TestedOp V → Option (TestedRun V)
  | .test => if s.run.panicked then none else s.test job
  | .op (.loop outcome) => if s.run.panicked then none else s.loop job outcome
  | .op op => (snapshotStep job s.run op).map fun run => { s with run := run }

variable {job : SnapshotJob} {next s : SnapshotRun V}

/-- In every step the loop looks right behind its tests. -/
theorem tested_of_step {op : SnapshotOp V} (taken : snapshotStep job s op = some next) :
    ∃ ops, Runs.run (testedStep job) ⟨s, false⟩ ops = some ⟨next, false⟩ := by
  -- A table that is passed over takes the tests only.
  have calm : s.panicked = false := by
    simp only [snapshotStep] at taken
    split at taken
    · cases taken
    · rename_i calm
      simpa using calm
  by_cases loops : ∃ outcome, op = .loop outcome
  · obtain ⟨outcome, rfl⟩ := loops
    simp only [snapshotStep, calm, Bool.false_eq_true, if_false] at taken
    cases at_ : s.loop with
    | looking index =>
      rw [runSnapshotLoop_looking at_] at taken
      cases passes : s.passesOver job index with
      | some loop =>
        rw [passes] at taken
        cases taken
        exact ⟨[.test], by simp [Runs.run, testedStep, calm, TestedRun.test, at_, passes]⟩
      | none =>
        rw [passes] at taken
        have visited : s.visit job index outcome = some next := taken
        exact ⟨[.test, .op (.loop outcome)], by
          simp [Runs.run, testedStep, calm, TestedRun.test, TestedRun.loop, at_, passes, visited]⟩
    | starting index rows tasks | sending index left sent | done =>
      exact ⟨[.op (.loop outcome)], by
        simp [Runs.run, testedStep, calm, TestedRun.loop, at_, taken]⟩
  · refine ⟨[.op op], ?_⟩
    cases op with
    | loop outcome => exact absurd ⟨outcome, rfl⟩ loops
    | _ => simp [Runs.run, testedStep, taken]

theorem tested_of_run {ops : List (SnapshotOp V)}
    (reached : Runs.run (snapshotStep job) s ops = some next) :
    ∃ tested, Runs.run (testedStep job) ⟨s, false⟩ tested = some ⟨next, false⟩ := by
  induction ops generalizing s with
  | nil =>
    cases reached
    exact ⟨[], rfl⟩
  | cons op rest ih =>
    obtain ⟨mid, taken, later⟩ := bind_eq_some_iff.mp reached
    obtain ⟨first, firstReached⟩ := tested_of_step taken
    obtain ⟨second, secondReached⟩ := ih later
    exact ⟨first ++ second, by rw [Runs.run_append, firstReached]; exact secondReached⟩

namespace TestedRun

/-- The loop has returned, or it waits for a worker to take a task. -/
def QuietLoop (s : TestedRun V) : Prop :=
  s.visiting = false ∧
    (s.run.loop = .done ∨ ∃ index left sent, s.run.loop = .sending index (left + 1) sent)

/-- The run closes the error channel only when the loop is quiet. -/
def ClosesLast (job : SnapshotJob) (s : TestedRun V) (op : TestedOp V) : Prop :=
  ∀ next, op = .op .main → testedStep job s op = some next →
    s.run.main.errChanClosed = false → next.run.main.errChanClosed = true → s.QuietLoop

/-- Nobody who could send an error is left when the channel is closed. -/
structure ChannelInv (job : SnapshotJob) (s : TestedRun V) : Prop where
  calm : s.run.panicked = false
  waited : s.run.main ≠ .waiting → ∀ worker < job.maxWorkers, s.run.workers worker = .exited
  quiet : s.run.main.errChanClosed = true → s.QuietLoop

variable {job : SnapshotJob} {s next : TestedRun V}

theorem QuietLoop.loop_none (quiet : s.QuietLoop) (outcome : PlanOutcome) :
    s.loop job outcome = none := by
  obtain ⟨-, done | ⟨index, left, sent, sending⟩⟩ := quiet
  · simp [loop, done, runSnapshotLoop]
  · simp [loop, sending, runSnapshotLoop]

theorem QuietLoop.test_none (quiet : s.QuietLoop) : s.test job = none := by
  obtain ⟨-, done | ⟨index, left, sent, sending⟩⟩ := quiet
  · simp [test, done]
  · simp [test, sending]

/-- The loop sends errors, and does no more. -/
theorem sends_loop {outcome : PlanOutcome} (taken : s.loop job outcome = some next) :
    s.run.Sends next.run := by
  have visited : ∀ index, (s.run.visit job index outcome).map (fun run => ⟨run, false⟩) =
      some next → s.run.Sends next.run := by
    intro index taken
    obtain ⟨run, visits, rfl⟩ := map_eq_some_iff.mp taken
    exact .visit visits
  have moved : (s.run.runSnapshotLoop job outcome).map (fun run => { s with run := run }) =
      some next → s.run.Sends next.run := by
    intro taken
    obtain ⟨run, moves, rfl⟩ := map_eq_some_iff.mp taken
    exact .runSnapshotLoop moves
  simp only [loop] at taken
  split at taken
  · exact visited _ taken
  · cases taken
  · exact moved taken

theorem test_frame (taken : s.test job = some next) :
    next.run.main = s.run.main ∧ next.run.workers = s.run.workers ∧
      next.run.panicked = s.run.panicked := by
  simp only [test] at taken
  split at taken
  · rename_i index _ _
    cases taken
    cases s.run.passesOver job index <;> exact ⟨rfl, rfl, rfl⟩
  · cases taken

/-- Once all workers have left, only the loop could send an error. -/
theorem exited_frame {s next : SnapshotRun V} {op : SnapshotOp V}
    (waited : ∀ worker < job.maxWorkers, s.workers worker = .exited)
    (noLoop : ∀ outcome, op ≠ .loop outcome) (running : op ≠ .main)
    (taken : snapshotStep job s op = some next) :
    next.loop = s.loop ∧ next.panicked = s.panicked := by
  -- A worker that has left takes no step.
  have reported : ∀ (progress : ProgressReport) (calls : List AckCall),
      ({ s.reportAck progress with calls := calls } : SnapshotRun V).loop = s.loop ∧
        ({ s.reportAck progress with calls := calls } : SnapshotRun V).panicked = s.panicked := by
    intro progress calls
    simp only [reportAck, report]
    cases s.ctxErr with
    | some err => exact ⟨rfl, rfl⟩
    | none => cases s.closed <;> exact ⟨rfl, rfl⟩
  simp only [snapshotStep] at taken
  split at taken
  · cases taken
  cases op with
  | loop outcome => exact absurd rfl (noLoop outcome)
  | main => exact absurd rfl running
  | cancel deadline =>
    cases taken
    exact ⟨rfl, rfl⟩
  | takeTask worker =>
    dsimp only at taken
    split at taken
    · rename_i known
      simp [SnapshotRun.takeTask, waited worker known] at taken
    · cases taken
  | worker worker op =>
    dsimp only at taken
    split at taken
    · rename_i known
      simp [waited worker known] at taken
    · cases taken
  | exit worker =>
    dsimp only at taken
    split at taken
    · rename_i known
      simp [exitWorker, waited worker known] at taken
    · cases taken
  | writer op =>
    obtain ⟨batch, -, rfl⟩ := map_eq_some_iff.mp taken
    exact ⟨rfl, rfl⟩
  | ackRange call row =>
    simp only [SnapshotRun.ackRange] at taken
    split at taken
    · cases taken
    split at taken
    · cases taken
    cases taken
    exact reported ..
  | ackLSN call =>
    simp only [SnapshotRun.ackLSN] at taken
    split at taken
    · cases taken
    split at taken
    · cases taken
    cases taken
    split
    · exact reported ..
    · exact ⟨rfl, rfl⟩
  | track stored =>
    simp only [trackProgress] at taken
    split at taken
    · cases taken
    · cases taken
      exact ⟨rfl, rfl⟩

/-- The run itself sends nothing, and waits for all workers. -/
theorem runSnapshot_waits {s next : SnapshotRun V} (taken : s.runSnapshot job = some next)
    (waited : s.main ≠ .waiting → ∀ worker < job.maxWorkers, s.workers worker = .exited) :
    next.loop = s.loop ∧ next.panicked = s.panicked ∧
      ∀ worker < job.maxWorkers, next.workers worker = .exited := by
  simp only [runSnapshot] at taken
  split at taken
  · split at taken
    · rename_i all
      cases taken
      refine ⟨rfl, rfl, fun worker known => ?_⟩
      exact of_decide_eq_true (List.all_eq_true.mp all worker (List.mem_range.mpr known))
    · cases taken
  · rename_i at_
    have gone := waited (by simp [at_])
    split at taken
    · cases taken
      exact ⟨rfl, rfl, gone⟩
    obtain ⟨batch, -, rfl⟩ := map_eq_some_iff.mp taken
    split
    · exact ⟨rfl, rfl, gone⟩
    · split <;> exact ⟨rfl, rfl, gone⟩
  · rename_i at_
    have gone := waited (by simp [at_])
    split at taken
    · cases taken
      exact ⟨rfl, rfl, gone⟩
    · cases taken
  · rename_i at_
    have gone := waited (by simp [at_])
    cases taken
    simp only [finish]
    split
    · exact ⟨rfl, rfl, gone⟩
    · split <;> exact ⟨rfl, rfl, gone⟩
  · cases taken

theorem ChannelInv.keep (inv : ChannelInv job s) {run : SnapshotRun V} {visiting : Bool}
    (sends : s.run.Sends run)
    (silent : s.run.main.errChanClosed = true →
      run.panicked = s.run.panicked ∧ QuietLoop ⟨run, visiting⟩) :
    ChannelInv job ⟨run, visiting⟩ := by
  refine ⟨?_, fun gone worker known => ?_, fun closed => ?_⟩
  · cases closed : s.run.main.errChanClosed with
    | true => exact (silent closed).1.trans inv.calm
    | false => exact (sends.delivered closed).trans inv.calm
  · rw [sends.main] at gone
    exact sends.exited worker (inv.waited gone worker known)
  · rw [sends.main] at closed
    exact (silent closed).2

/-- Nobody is left to send when the channel is closed. -/
theorem ChannelInv.step (inv : ChannelInv job s) {op : TestedOp V} (last : s.ClosesLast job op)
    (taken : testedStep job s op = some next) : ChannelInv job next := by
  -- The steps that are neither the loop's nor the run's own come last.
  have closedWaits : s.run.main.errChanClosed = true → s.run.main ≠ .waiting := by
    intro closed waiting
    rw [waiting] at closed
    cases closed
  have others : ∀ op : SnapshotOp V, (∀ outcome, op ≠ .loop outcome) → op ≠ .main →
      (∀ deadline, op ≠ .cancel deadline) →
      (snapshotStep job s.run op).map (fun run => { s with run := run }) = some next →
      ChannelInv job next := by
    intro op noLoop running other taken
    obtain ⟨run, moves, rfl⟩ := map_eq_some_iff.mp taken
    refine inv.keep (.step other running moves) fun closed => ?_
    obtain ⟨loop, panicked⟩ := exited_frame (inv.waited (closedWaits closed)) noLoop running moves
    have quiet := inv.quiet closed
    exact ⟨panicked, quiet.1, by rw [loop]; exact quiet.2⟩
  cases op with
  | test =>
    simp only [testedStep, inv.calm, Bool.false_eq_true, if_false] at taken
    obtain ⟨main, workers, panicked⟩ := test_frame taken
    refine ⟨panicked.trans inv.calm, ?_, fun closed => ?_⟩
    · rw [main, workers]
      exact inv.waited
    · rw [main] at closed
      rw [(inv.quiet closed).test_none] at taken
      cases taken
  | op op =>
    cases op with
    | loop outcome =>
      simp only [testedStep, inv.calm, Bool.false_eq_true, if_false] at taken
      refine inv.keep (sends_loop taken) fun closed => ?_
      rw [(inv.quiet closed).loop_none] at taken
      cases taken
    | cancel deadline =>
      simp only [testedStep, snapshotStep, inv.calm, Bool.false_eq_true, if_false,
        map_some] at taken
      cases taken
      exact ⟨rfl, inv.waited, inv.quiet⟩
    | main =>
      have closes := last next rfl taken
      simp only [testedStep, snapshotStep, inv.calm, Bool.false_eq_true, if_false] at taken
      obtain ⟨run, moves, rfl⟩ := map_eq_some_iff.mp taken
      obtain ⟨loop, panicked, gone⟩ := runSnapshot_waits moves inv.waited
      refine ⟨panicked.trans inv.calm, fun _ => gone, fun closed => ?_⟩
      -- Either the channel was closed before, or this step closes it.
      have quiet : s.QuietLoop := by
        cases before : s.run.main.errChanClosed with
        | true => exact inv.quiet before
        | false => exact closes before closed
      exact ⟨quiet.1, by rw [loop]; exact quiet.2⟩
    | takeTask worker =>
      exact others (.takeTask worker) (by simp) (by simp) (by simp) taken
    | worker worker op =>
      exact others (.worker worker op) (by simp) (by simp) (by simp) taken
    | exit worker =>
      exact others (.exit worker) (by simp) (by simp) (by simp) taken
    | writer op =>
      exact others (.writer op) (by simp) (by simp) (by simp) taken
    | ackRange call row =>
      exact others (.ackRange call row) (by simp) (by simp) (by simp) taken
    | ackLSN call =>
      exact others (.ackLSN call) (by simp) (by simp) (by simp) taken
    | track stored =>
      exact others (.track stored) (by simp) (by simp) (by simp) taken

end TestedRun

/--
In a run that closes the error channel only when the loop has returned, or waits for a worker to
take a task, nobody sends on the closed channel.
-/
theorem no_send_on_closed {job : SnapshotJob} {config : RetryConfig} {ops : List (TestedOp V)}
    {s : TestedRun V}
    (last : Runs.Along (testedStep job) (TestedRun.ClosesLast job) (.start job config) ops)
    (reached : Runs.run (testedStep job) (.start job config) ops = some s) :
    s.run.panicked = false := by
  have start : TestedRun.ChannelInv job (TestedRun.start job config : TestedRun V) :=
    ⟨rfl, fun moved => absurd rfl moved, fun closed => absurd closed Bool.false_ne_true⟩
  exact (@Runs.invariant _ _ _ _ (TestedRun.ChannelInv job)
    (fun _ _ _ inv last taken => inv.step last taken) _ _ _ start last reached).calm

namespace Sample

/-- A table without tasks; the run ends when the loop has returned. -/
def emptyTable : List (TestedOp Nat) :=
  let plan := .op (.loop (.planned 0 ⟨"", [], false⟩))
  [.test, plan, plan, plan, .test, .op (.exit 0), .op .main, .op .main, .op (.track true),
    .op (.track true), .op .main, .op .main]

/-- The context is cancelled behind a plan; the loop goes on at the end. -/
def lateLoop : List (TestedOp Nat) :=
  let plan := .op (.loop (.planned 1 ⟨"SELECT * FROM public.users", [], false⟩))
  [.test, plan, .op (.cancel false), .op (.exit 0), .op .main, .op .main, .op .main, plan]

end Sample

open Sample

/-- The run that waits for the loop sends nothing on the closed channel. -/
theorem no_send_on_closed_empty_table :
    ∃ s, Runs.run (testedStep (snapshotJob ["public.users"]))
        (.start (snapshotJob ["public.users"]) retryConfig) emptyTable = some s ∧
      s.run.main = .returned none ∧ s.run.panicked = false := by
  -- The loop returns in the fifth step, before the channel is looked at.
  obtain ⟨s, reached, returned⟩ : ∃ s,
      Runs.run (testedStep (snapshotJob ["public.users"]))
        (.start (snapshotJob ["public.users"]) retryConfig) emptyTable = some s ∧
      s.run.main = .returned none := ⟨_, rfl, rfl⟩
  refine ⟨s, reached, returned, no_send_on_closed ?_ reached⟩
  have other : ∀ {s : TestedRun Nat} {op : TestedOp Nat}, op ≠ .op .main →
      s.ClosesLast (snapshotJob ["public.users"]) op :=
    fun differs _ same => absurd same differs
  have quiet : ∀ {s : TestedRun Nat}, s.QuietLoop →
      s.ClosesLast (snapshotJob ["public.users"]) (.op .main) := fun quiet _ _ _ _ _ => quiet
  exact .cons (other nofun) rfl <| .cons (other nofun) rfl <| .cons (other nofun) rfl <|
    .cons (other nofun) rfl <| .cons (other nofun) rfl <| .cons (other nofun) rfl <|
    .cons (quiet ⟨rfl, .inl rfl⟩) rfl <| .cons (quiet ⟨rfl, .inl rfl⟩) rfl <|
    .cons (other nofun) rfl <| .cons (other nofun) rfl <| .cons (quiet ⟨rfl, .inl rfl⟩) rfl <|
    .last (quiet ⟨rfl, .inl rfl⟩)

/-- The loop that nobody waits for reports its failure on the closed channel. -/
theorem send_on_closed_late_loop :
    ∃ s, Runs.run (testedStep (snapshotJob ["public.users"]))
        (.start (snapshotJob ["public.users"]) retryConfig) lateLoop = some s ∧
      s.run.main = .collecting ∧ s.run.panicked = true :=
  ⟨_, rfl, rfl, rfl⟩

end PgWalk
