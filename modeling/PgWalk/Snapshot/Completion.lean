import PgWalk.Snapshot.RunSteps
import PgWalk.Snapshot.Sends

/-! What a table that a snapshot run marks as completed has behind it. -/

namespace PgWalk

open SnapshotRun List

variable {V : Type}

/-- What no step takes back, apart from the context and the run itself. -/
structure SnapshotRun.Keeps (s next : SnapshotRun V) : Prop where
  ctxErr : next.ctxErr = s.ctxErr
  main : next.main = s.main
  errors : ∀ err ∈ s.errors, err ∈ next.errors

namespace SnapshotRun.Keeps

variable {job : SnapshotJob} {s next : SnapshotRun V}

theorem step {op : SnapshotOp V} (other : ∀ deadline, op ≠ .cancel deadline) (running : op ≠ .main)
    (taken : snapshotStep job s op = some next) : Keeps s next := by
  -- An error that is sent joins the others, or it is lost.
  obtain ⟨ctxErr, main, -, sent⟩ := Sends.step other running taken
  refine ⟨ctxErr, main, fun err member => ?_⟩
  rcases sent with ⟨errors, -⟩ | ⟨tableName, late, errors, -⟩
  · rwa [errors]
  · rw [errors, sendError]
    split
    · exact member
    · exact mem_append_left _ member

theorem undoomed (keeps : Keeps s next) (undoomed : Undoomed job next) : Undoomed job s := by
  obtain ⟨active, spared, remains⟩ := undoomed
  refine ⟨keeps.ctxErr.symm.trans active, fun abort err member => ?_, fun err returned => ?_⟩
  · exact spared abort err (keeps.errors err member)
  · exact remains err (keeps.main.trans returned)

end SnapshotRun.Keeps

section Runs

variable {job : SnapshotJob} {s next : SnapshotRun V}

theorem finish_frame (s : SnapshotRun V) (job : SnapshotJob) :
    (s.finish job).ctxErr = s.ctxErr ∧ (s.finish job).errors = s.errors := by
  simp only [finish]
  split
  · exact ⟨rfl, rfl⟩
  · split <;> exact ⟨rfl, rfl⟩

/-- The main goroutine keeps errors and context. -/
theorem runSnapshot_frame (taken : s.runSnapshot job = some next) :
    next.ctxErr = s.ctxErr ∧ next.errors = s.errors ∧ ∀ err, s.main ≠ .returned err := by
  simp only [runSnapshot] at taken
  split at taken
  · rename_i at_
    split at taken
    · cases taken
      exact ⟨rfl, rfl, by simp [at_]⟩
    · cases taken
  · rename_i target at_
    split at taken
    · cases taken
      exact ⟨rfl, rfl, by simp [at_]⟩
    obtain ⟨batch, -, rfl⟩ := Option.map_eq_some_iff.mp taken
    refine ⟨?_, ?_, by simp [at_]⟩
    · split
      · rfl
      · split <;> rfl
    · split
      · rfl
      · split <;> rfl
  · rename_i at_
    split at taken
    · cases taken
      exact ⟨rfl, rfl, by simp [at_]⟩
    · cases taken
  · rename_i at_
    cases taken
    obtain ⟨ctxErr, errors⟩ := finish_frame s job
    exact ⟨ctxErr, errors, by simp [at_]⟩
  · cases taken

variable {op : SnapshotOp V} {index : Nat} {states : TableMemory}

/-- What was doomed stays doomed. -/
theorem undoomed_of_step (taken : snapshotStep job s op = some next)
    (undoomed : Undoomed job next) : Undoomed job s := by
  by_cases cancels : ∃ deadline, op = .cancel deadline
  · obtain ⟨deadline, rfl⟩ := cancels
    simp only [snapshotStep] at taken
    split at taken
    · cases taken
    · cases taken
      have active := undoomed.1
      simp at active
  by_cases own : op = .main
  · subst own
    simp only [snapshotStep] at taken
    split at taken
    · cases taken
    · obtain ⟨ctxErr, errors, remains⟩ := runSnapshot_frame taken
      rw [Undoomed, ctxErr, errors] at undoomed
      exact ⟨undoomed.1, undoomed.2.1, remains⟩
  · exact (Keeps.step (fun deadline same => cancels ⟨deadline, same⟩) own
      taken).undoomed undoomed

/-- Every admitted step keeps what is known of a run that is not doomed. -/
theorem RunInv.step (unaliased : job.Unaliased) (inv : Undoomed job s → RunInv job s)
    (admitted : Admitted job s op) (taken : snapshotStep job s op = some next)
    (undoomed : Undoomed job next) : RunInv job next := by
  -- What dooms a run is never taken back.
  have before := undoomed_of_step taken undoomed
  have inv := inv before
  have active := before.1
  have spared := undoomed.2.1
  simp only [snapshotStep] at taken
  split at taken
  · cases taken
  cases op with
  | cancel deadline =>
    cases taken
    have cancelled := undoomed.1
    simp at cancelled
  | loop outcome => exact inv.runSnapshotLoop unaliased active admitted spared taken
  | takeTask worker =>
    dsimp only at taken
    split at taken
    · rename_i known
      exact inv.takeTask known taken
    · cases taken
  | worker worker op =>
    dsimp only at taken
    split at taken
    swap
    · cases taken
    rename_i known
    split at taken
    · rename_i running
      exact inv.worker unaliased active known admitted spared running taken
    · cases taken
    · cases taken
  | exit worker =>
    dsimp only at taken
    split at taken
    · rename_i known
      exact inv.exit active known taken
    · cases taken
  | writer op => exact inv.writer (admitted active) taken
  | ackRange call row => exact inv.ackRange active taken
  | ackLSN call => exact inv.ackLSN active taken
  | track stored => exact inv.track taken
  | main => exact inv.main active (admitted active) undoomed.2.2 taken

theorem failTable_status (states : TableMemory) (tableName : String) (index : Nat) :
    (failTable job states tableName index).status =
      if job.findTableState tableName = some index then .failed else (states index).status := by
  simp only [failTable]
  cases found : job.findTableState tableName with
  | none => simp
  | some place =>
    by_cases same : index = place
    · subst same
      simp [TableMemory.setStatus]
    · simp [TableMemory.setStatus, same, Ne.symm same]

theorem foldl_failTable_status (names : List String) (states : TableMemory) (index : Nat) :
    ((names.foldl (failTable job) states) index).status =
      if ∃ tableName ∈ names, job.findTableState tableName = some index then .failed
      else (states index).status := by
  -- By induction on the names, where a status that was set as failed stays so.
  induction names generalizing states with
  | nil => simp
  | cons tableName names ih =>
    rw [foldl_cons, ih, failTable_status]
    by_cases here : job.findTableState tableName = some index
    · simp [here]
    · simp [here]

theorem findTableState_name (unaliased : job.Unaliased) (known : index < job.count) :
    job.findTableState (job.name index) = some index := by
  simp only [SnapshotJob.findTableState, find?_range_eq_some, decide_eq_true_eq,
    mem_range, Bool.not_eq_true', decide_eq_false_iff_not, true_and]
  refine ⟨known, fun earlier before same => ?_⟩
  have equal := unaliased.distinct earlier (before.trans known) index known same
  omega

theorem not_completes_failEffects (s : SnapshotRun V) (names : List String) (tableName : String) :
    ¬ Completes tableName (names.flatMap (s.failEffects job)) := by
  rintro ⟨effect, member, completes⟩
  obtain ⟨failed, -, among⟩ := mem_flatMap.mp member
  simp only [failEffects] at among
  cases found : job.findTableState failed with
  | none =>
    simp only [found, nil_append, mem_singleton] at among
    subst among
    simp at completes
  | some index =>
    simp only [found, cons_append, nil_append, mem_cons, not_mem_nil, or_false] at among
    rcases among with rfl | rfl
    · simp at completes
    · simp at completes

theorem completes_sweep {tableName : String}
    (completes : Completes tableName (sweep job states)) :
    ∃ index < job.count, job.name index = tableName ∧ (states index).status ≠ .completed ∧
      (states index).status ≠ .failed := by
  obtain ⟨effect, member, completes⟩ := completes
  obtain ⟨index, below, swept⟩ := mem_filterMap.mp member
  split at swept
  swap
  · cases swept
  rename_i left
  cases swept
  refine ⟨index, mem_range.mp below, ?_, left⟩
  rcases completes with ⟨rows, message, same⟩ | same
  · exact (SnapshotEffect.updateProgress.inj same).1
  · cases same

/-- A run without an error has swept what was left. -/
theorem returned_none (taken : s.runSnapshot job = some next)
    (returned : next.main = .returned none) :
    s.main = .collecting ∧ s.ctxErr = none ∧
      (job.abortOnError = true → s.failedTables = []) ∧ next.log = s.log ∧ next.batch = s.batch ∧
      next.effects = s.effects ++ s.failedTables.flatMap (s.failEffects job) ++
        sweep job (s.failedTables.foldl (failTable job) s.states) := by
  -- The run returns without an error from its last phase only.
  cases at_ : s.main with
  | waiting | draining =>
    simp only [runSnapshot, at_] at taken
    split at taken
    · cases taken
      cases returned
    · cases taken
  | acking target =>
    simp only [runSnapshot, at_] at taken
    split at taken
    · cases taken
      cases returned
    obtain ⟨batch, -, rfl⟩ := Option.map_eq_some_iff.mp taken
    split at returned
    · cases returned
    · split at returned
      · cases returned
      · cases returned
  | collecting =>
    simp only [runSnapshot, at_] at taken
    cases taken
    simp only [finish] at returned ⊢
    split at returned
    · cases returned
    rename_i unaborted
    split at returned
    · cases returned
    rename_i active
    rw [if_neg unaborted]
    refine ⟨trivial, active, fun abort => ?_, ?_⟩
    · by_contra failed
      exact unaborted ⟨failed, abort⟩
    · exact ⟨rfl, rfl, rfl⟩
  | returned err =>
    simp only [runSnapshot, at_] at taken
    cases taken

theorem mem_failedTables {err : TableError} (member : err ∈ s.errors)
    (counts : err.err.canceled = false) : err.tableName ∈ s.failedTables := by
  refine mem_dedup.mpr (mem_map.mpr ⟨err, ?_, rfl⟩)
  exact mem_filter.mpr ⟨member, by simp [counts]⟩

/-- What is left at the last look at the tables is finished. -/
theorem RunInv.finished_of_swept (inv : RunInv job s) (unaliased : job.Unaliased)
    (collecting : s.main = .collecting) (known : index < job.count)
    (failed : states = s.failedTables.foldl (failTable job) s.states)
    (left : (states index).status ≠ .completed ∧ (states index).status ≠ .failed) :
    Finished s.log s.batch.tracker.maxAcknowledged.lsn index := by
  -- An error filed under the name would have failed the table.
  have waited := inv.ending.waited (by simp [collecting])
  have done : s.loop = .done := by
    rcases inv.live with done | ⟨worker, below, present⟩
    · exact done
    · exact absurd (waited worker below) present
  rw [failed, foldl_failTable_status] at left
  have unfailed : ¬ FiledError s.errors (job.name index) := by
    rintro ⟨err, member, named, counts⟩
    refine left.2 (if_pos ⟨job.name index, ?_, findTableState_name unaliased known⟩)
    rw [← named]
    exact mem_failedTables member counts
  have uncompleted : (s.states index).status ≠ .completed := by
    intro completed
    split at left
    · exact left.2 rfl
    · exact left.1 completed
  have handled := inv.loop.handled index known (by rw [done]; trivial)
  rcases handled with before | failed | ⟨tasks, planned, sent⟩
  · exact absurd (inv.memory.kept index before) uncompleted
  · exact absurd failed unfailed
  · -- Nobody is busy any more and nothing has failed, so what was sent is finished.
    have balance := inv.tasks.tasks index
    have idle : busy job s.workers index = 0 :=
      Accounts.tally_eq_zero fun worker below => by simp [waited worker below, WorkerState.table]
    have none : (s.log index).failed = 0 :=
      Nat.eq_zero_of_not_pos fun positive => unfailed (inv.tasks.failed index positive)
    exact ⟨tasks, planned, sent, by omega, inv.ending.acked (.inr collecting) index⟩

end Runs

/--
When every step of a run is admitted and the run returns no error, each table that it set or stored
as completed has a plan of which every task was sent and finished, no task failed, and every batch
that was submitted for it is acknowledged.
-/
theorem completed_snapshotted {job : SnapshotJob} {config : RetryConfig} {ops : List (SnapshotOp V)}
    {s next : SnapshotRun V} (unaliased : job.Unaliased)
    (admitted : Runs.Along (snapshotStep job) (Admitted job) (start job config) ops)
    (reached : Runs.run (snapshotStep job) (start job config) ops = some s)
    (taken : snapshotStep job s .main = some next) (returned : next.main = .returned none) :
    ∀ index < job.count, Completes (job.name index) next.effects →
      ∃ tasks, (next.log index).planned = some tasks ∧ (next.log index).sent = tasks ∧
        (next.log index).finished = tasks ∧ (next.log index).failed = 0 ∧
        ∀ lsn ∈ (next.log index).lsns,
          ∃ item ∈ next.batch.ledger, item.tag.lsn = lsn ∧ item.owed = ∅ := by
  -- Returning no error says that nothing has doomed the run.
  have kept : Undoomed job s → RunInv job s :=
    @Runs.invariant _ _ _ _ (fun s => Undoomed job s → RunInv job s)
      (fun _ _ _ inv admitted taken => RunInv.step unaliased inv admitted taken)
      (start job config) s ops (fun _ => RunInv.start job config) admitted reached
  simp only [snapshotStep] at taken
  split at taken
  · cases taken
  obtain ⟨collecting, active, spared, log, batch, effects⟩ := returned_none taken returned
  have inv : RunInv job s := by
    refine kept ⟨active, fun abort err member => ?_, by simp [collecting]⟩
    by_contra counts
    have failed := mem_failedTables member (Bool.not_eq_true _ ▸ counts)
    rw [spared abort] at failed
    cases failed
  intro index known completes
  -- The table was completed during the run, or by the last look.
  have finished : Finished s.log s.batch.tracker.maxAcknowledged.lsn index := by
    rw [effects] at completes
    rcases completes_append.mp completes with earlier | swept
    · rcases completes_append.mp earlier with before | failed
      · exact inv.marks index known before
      · exact absurd failed (not_completes_failEffects s _ _)
    · obtain ⟨other, below, named, left⟩ := completes_sweep swept
      cases unaliased.distinct other below index known named
      exact inv.finished_of_swept unaliased collecting known rfl left
  obtain ⟨tasks, planned, sent, done, acked⟩ := finished
  have balance := inv.tasks.tasks index
  rw [log, batch]
  refine ⟨tasks, planned, sent, done, by omega, fun lsn member => ?_⟩
  obtain ⟨item, filed, tag⟩ := inv.numbers.filed index lsn member
  exact ⟨item, filed, tag,
    inv.numbers.system.exact.owed_of_le filed (tag.trans_le (acked lsn member))⟩

namespace Sample

/-- A run over pending tables, one worker, going on after errors. -/
def snapshotJob (tables : List String) : SnapshotJob where
  getTable name := some ⟨name, [⟨"id", 23, true, 1⟩], [⟨"id", 23, true, 1⟩], 1⟩
  tableStates := tables.map fun table => { TableState.new table "pg2redis" with status := .pending }
  parallelWorkers := 1
  abortOnError := false

/-- The first table is read by one query; its row is acknowledged. -/
def snapshotOps : List (SnapshotOp Nat) :=
  let plan := .loop (.planned 1 ⟨"SELECT * FROM public.users", [], false⟩)
  [plan, plan, .takeTask 0, .worker 0 .nextLSN, .worker 0 (.onSnapshotBatch [snapshotRow]),
    .worker 0 .reportMaxLSN, .worker 0 .markSubmitted, .worker 0 .finishTask, plan, plan, .exit 0,
    .writer .popRound, .writer (.onSuccess ⟨[⟨1, 0, 0, makeTableName "public" "users"⟩]⟩),
    .ackRange 0 0, .ackLSN 0, .main, .main, .track true, .track true, .track true, .track true,
    .track true, .track true, .main]

/-- The number of rows in the first table cannot be estimated. -/
def estimateFails : List (SnapshotOp Nat) :=
  [.loop (.estimateFailed ⟨"relation is locked", false⟩), .exit 0, .main, .main, .main]

end Sample

open Sample

theorem admitted_planned (tables : List String) (s : SnapshotRun V) (rows : Int)
    (plan : SnapshotTablePlan) :
    Admitted (snapshotJob tables) s (.loop (.planned rows plan)) := by
  refine fun _ => ⟨nofun, fun index _ early => ?_⟩
  rcases early with failed | ⟨table, found, bare⟩
  · exact absurd rfl failed
  · cases found
    cases bare

theorem noOvertaking_of_free {batch : BatchSystem V} {op : TrackerOp V}
    (free : ∀ worker, batch.held worker = none) : NoOvertaking batch (.writer op) := by
  intro worker lsn held
  rw [free worker] at held
  cases held

/-- A table whose one batch was acknowledged is completed. -/
theorem completed_snapshotted_one_batch :
    ∃ s next : SnapshotRun Nat,
      Runs.run (snapshotStep (snapshotJob ["public.users"]))
        (start (snapshotJob ["public.users"]) retryConfig)
        snapshotOps = some s ∧
      snapshotStep (snapshotJob ["public.users"]) s .main = some next ∧
      next.main = .returned none ∧ Completes "public.users" next.effects ∧
      (next.log 0).lsns = [1] ∧
      ∃ tasks, (next.log 0).planned = some tasks ∧ (next.log 0).sent = tasks ∧
        (next.log 0).finished = tasks ∧ (next.log 0).failed = 0 ∧
        ∀ lsn ∈ (next.log 0).lsns,
          ∃ item ∈ next.batch.ledger, item.tag.lsn = lsn ∧ item.owed = ∅ := by
  -- The one number taken has been used when the row is written.
  obtain ⟨s, next, reached, taken, returned, completes, batches⟩ : ∃ s next : SnapshotRun Nat,
      Runs.run (snapshotStep (snapshotJob ["public.users"]))
        (start (snapshotJob ["public.users"]) retryConfig)
        snapshotOps = some s ∧
      snapshotStep (snapshotJob ["public.users"]) s .main = some next ∧
      next.main = .returned none ∧ Completes "public.users" next.effects ∧
      (next.log 0).lsns = [1] := by
    refine ⟨_, _, rfl, rfl, rfl, ⟨.status "public.users" .completed, ?_, .inr rfl⟩, rfl⟩
    decide
  have unaliased : (snapshotJob ["public.users"]).Unaliased := by
    have single : (snapshotJob ["public.users"]).count = 1 := rfl
    constructor <;> intro first firstKnown second secondKnown _ <;> omega
  have free : ∀ worker, Function.update (Function.update (fun _ => none) 0 (some 1)) 0 none worker =
      (none : Option Nat) := by
    intro worker
    by_cases first : worker = 0
    · simp [first]
    · simp [first]
  have admitted : Runs.Along (snapshotStep (snapshotJob ["public.users"]))
      (Admitted (snapshotJob ["public.users"]))
      (start (snapshotJob ["public.users"]) retryConfig)
      snapshotOps := by
    have planned := admitted_planned (V := Nat) ["public.users"]
    refine .cons (planned _ _ _) rfl (.cons (planned _ _ _) rfl (.cons (fun _ => trivial) rfl
      (.cons (fun _ => trivial) rfl (.cons (fun _ => trivial) rfl (.cons (fun _ => trivial) rfl
      (.cons (fun _ => trivial) rfl (.cons (fun _ => trivial) rfl (.cons (planned _ _ _) rfl
      (.cons (planned _ _ _) rfl (.cons (fun _ => trivial) rfl ?_))))))))))
    refine .cons (fun _ => noOvertaking_of_free free) rfl
      (.cons (fun _ => noOvertaking_of_free free) rfl (.cons (fun _ => trivial) rfl
      (.cons (fun _ => trivial) rfl (.cons (fun _ => noOvertaking_of_free free) rfl
      (.cons (fun _ => noOvertaking_of_free free) rfl ?_)))))
    exact .cons (fun _ => trivial) rfl (.cons (fun _ => trivial) rfl (.cons (fun _ => trivial) rfl
      (.cons (fun _ => trivial) rfl (.cons (fun _ => trivial) rfl (.cons (fun _ => trivial) rfl
      (.last fun _ => noOvertaking_of_free free))))))
  exact ⟨s, next, reached, taken, returned, completes, batches,
    completed_snapshotted unaliased admitted reached taken returned 0 (by decide) completes⟩

/-- A table behind an unplannable one is completed but never sent. -/
theorem completed_not_dispatched :
    ∃ s next : SnapshotRun Nat,
      Runs.run (snapshotStep (snapshotJob ["public.users", "public.orders"]))
        (start (snapshotJob ["public.users", "public.orders"])
          retryConfig) estimateFails = some s ∧
      snapshotStep (snapshotJob ["public.users", "public.orders"]) s .main = some next ∧
      next.main = .returned none ∧ Completes "public.orders" next.effects ∧
      next.log 1 = .empty := by
  refine ⟨_, _, rfl, rfl, rfl, ⟨.updateProgress "public.orders" 0 .completed none, ?_, ?_⟩, rfl⟩
  · exact mem_append_right _ mem_cons_self
  · exact .inl ⟨0, none, rfl⟩

end PgWalk
