import Mathlib.Algebra.Order.Group.Int
import Mathlib.Algebra.Order.BigOperators.Group.List
import Mathlib.Algebra.Ring.Int.Defs
import Mathlib.Data.List.Dedup
import Mathlib.Data.List.Perm.Subperm
import PgWalk.Snapshot.TableView

/-! The end of a table's snapshot does not depend on the order in which its reports arrive. -/

namespace PgWalk

open StoredProgress

open List hiding after

open SnapshotProgressTracker TableView

/-- What is reported during a snapshot, with its task. -/
inductive SnapshotEvent
  | started (tableName : String) (totalRows : Int)
  | dispatched (tableName : String)
  | batch (tableName : String) (task lsn : Nat)
  | taskDone (tableName : String) (task : Nat)
  | rangeDone (tableName : String) (rows : Int)
  | acked (lsn : Nat)
deriving DecidableEq

/-- Each table's tasks, with their batches' numbers from one on. -/
structure SnapshotTasks where
  tasks : String → List (List Nat)
  positive : ∀ name, ∀ lsns ∈ tasks name, ∀ lsn ∈ lsns, 0 < lsn

def SnapshotTasks.report (plan : SnapshotTasks) : SnapshotEvent → ProgressReport
  | .started tableName totalRows => .tableStarted tableName totalRows
  | .dispatched tableName => .tableDispatched tableName (plan.tasks tableName).length
  | .batch tableName _ lsn => .maxLSN tableName lsn
  | .taskDone tableName _ => .taskDone tableName
  | .rangeDone tableName rows => .rangeDone tableName rows
  | .acked lsn => .lsnAck lsn

def doneTasks (name : String) (log : List SnapshotEvent) : List Nat :=
  log.filterMap fun event => match event with
    | .taskDone tableName task => if tableName = name then some task else none
    | _ => none

def reportedRows (name : String) (log : List SnapshotEvent) : List Int :=
  log.filterMap fun event => match event with
    | .rangeDone tableName rows => if tableName = name then some rows else none
    | _ => none

/-- The start of a table has been reported. -/
def IsStarted (name : String) (log : List SnapshotEvent) : Prop :=
  ∃ totalRows, .started name totalRows ∈ log

/-- An event may be reported after those before it. -/
def MayReport (plan : SnapshotTasks) (log : List SnapshotEvent) : SnapshotEvent → Prop
  | .started tableName _ => ¬ IsStarted tableName log
  | .dispatched tableName => IsStarted tableName log
  | .batch tableName task lsn => IsStarted tableName log ∧ task ∉ doneTasks tableName log ∧
    ∃ lsns, (plan.tasks tableName)[task]? = some lsns ∧ lsn ∈ lsns
  | .taskDone tableName task => IsStarted tableName log ∧ task ∉ doneTasks tableName log ∧
    ∃ lsns, (plan.tasks tableName)[task]? = some lsns ∧
      ∀ lsn ∈ lsns, .batch tableName task lsn ∈ log
  | .rangeDone tableName _ => IsStarted tableName log
  | .acked _ => True

variable {plan : SnapshotTasks} {name : String} {log : List SnapshotEvent}
  {event : SnapshotEvent}

theorem doneTasks_snoc :
    doneTasks name (log ++ [event]) = doneTasks name log ++ doneTasks name [event] := by
  simp [doneTasks]

theorem reportedRows_snoc :
    reportedRows name (log ++ [event]) = reportedRows name log ++ reportedRows name [event] := by
  simp [reportedRows]

theorem IsStarted.snoc (started : IsStarted name log) : IsStarted name (log ++ [event]) := by
  obtain ⟨totalRows, reported⟩ := started
  exact ⟨totalRows, mem_append_left _ reported⟩

theorem SnapshotTableProgress.isDone_iff (table : SnapshotTableProgress) {maxAck : Nat} :
    table.isDone maxAck = true ↔ table.doneTasks = table.tasksCount ∧ table.dispatched = true ∧
      table.maxLSN ≤ maxAck ∧ 0 < table.maxLSN := by
  simp [isDone, and_assoc]

/-- What the counters of a table say about the events so far. -/
structure Counters (plan : SnapshotTasks) (name : String) (log : List SnapshotEvent)
    (table : SnapshotTableProgress) : Prop where
  done : table.doneTasks = (doneTasks name log).length
  distinct : (doneTasks name log).Nodup
  known : ∀ task ∈ doneTasks name log, ∃ lsns, (plan.tasks name)[task]? = some lsns ∧
    ∀ lsn ∈ lsns, .batch name task lsn ∈ log
  dispatched : table.dispatched = true ↔ .dispatched name ∈ log
  begun : .dispatched name ∈ log → IsStarted name log
  tasksCount : table.dispatched = true → table.tasksCount = (plan.tasks name).length
  reported : ∀ task lsn, .batch name task lsn ∈ log → lsn ≤ table.maxLSN
  maxLSN : table.maxLSN = 0 ∨ ∃ lsns ∈ plan.tasks name, table.maxLSN ∈ lsns
  rows : table.processedRows = (reportedRows name log).sum

open SnapshotTasks

namespace Counters

open SnapshotProgressTracker

variable {table : SnapshotTableProgress}

section

variable (reportEvery : Int) (name : String) (table : SnapshotTableProgress)
  (plan : SnapshotTasks) (event : SnapshotEvent)

abbrev next : SnapshotTableProgress :=
  progressAfter reportEvery name table (plan.report event)

theorem next_doneTasks : (next reportEvery name table plan event).doneTasks =
    table.doneTasks + (doneTasks name [event]).length := by
  rw [progressAfter_doneTasks]
  cases event with
  | taskDone tableName task =>
    by_cases same : tableName = name <;> simp [doneTasks, report, same]
  | _ => simp [doneTasks, report]

theorem next_dispatched : (next reportEvery name table plan event).dispatched = true ↔
    table.dispatched = true ∨ event = .dispatched name := by
  cases event with
  | acked lsn => simp [next, progressAfter, report]
  | dispatched tableName =>
    by_cases same : name = tableName
    · simp [next, progressAfter, report, same]
    · simp [next, progressAfter, report, same, Ne.symm same]
  | _ =>
    simp only [next, progressAfter, report]
    split_ifs <;> simp

theorem next_tasksCount :
    (next reportEvery name table plan event).tasksCount = table.tasksCount ∨
      (next reportEvery name table plan event).tasksCount = (plan.tasks name).length := by
  rcases progressAfter_dispatched reportEvery name table (plan.report event) with ⟨-, same⟩ | now
  · exact .inl same
  · cases event with
    | dispatched tableName =>
      rw [report, ProgressReport.tableDispatched.injEq] at now
      obtain ⟨rfl, count⟩ := now
      exact .inr count.symm
    | _ => cases now

theorem next_maxLSN : (next reportEvery name table plan event).maxLSN = table.maxLSN ∨
    ∃ task, event = .batch name task (next reportEvery name table plan event).maxLSN := by
  cases event with
  | acked lsn => exact .inl rfl
  | batch tableName task lsn =>
    simp only [next, progressAfter, report]
    split_ifs with same raised
    · subst same
      exact .inr ⟨task, rfl⟩
    · exact .inl rfl
    · exact .inl rfl
  | _ =>
    simp only [next, progressAfter, report]
    split_ifs <;> exact .inl rfl

theorem next_processedRows : (next reportEvery name table plan event).processedRows =
    table.processedRows + (reportedRows name [event]).sum := by
  cases event with
  | acked lsn => simp [next, reportedRows, progressAfter, report]
  | rangeDone tableName rows =>
    by_cases same : name = tableName
    · simp [next, reportedRows, progressAfter, report, same]
    · simp [next, reportedRows, progressAfter, report, same, Ne.symm same]
  | _ =>
    simp only [next, progressAfter, report]
    split_ifs <;> simp [reportedRows]

end

theorem distinct_snoc (distinct : (doneTasks name log).Nodup)
    (admissible : MayReport plan log event) : (doneTasks name (log ++ [event])).Nodup := by
  cases event with
  | taskDone tableName task =>
    by_cases same : tableName = name
    · subst same
      simpa [doneTasks] using nodup_append_comm.mp
        (nodup_cons.mpr ⟨admissible.2.1, distinct⟩ : ([task] ++ _).Nodup)
    · simpa [doneTasks, same] using distinct
  | _ => simpa [doneTasks] using distinct

section

variable (counters : Counters plan name log table)

include counters

/-- A task that is done is in the plan, and its batches have been reported. -/
theorem known_snoc (admissible : MayReport plan log event) :
    ∀ task ∈ doneTasks name (log ++ [event]), ∃ lsns, (plan.tasks name)[task]? = some lsns ∧
      ∀ lsn ∈ lsns, .batch name task lsn ∈ log ++ [event] := by
  -- The task is done by this event, admitted only after its batches.
  intro task member
  have reported : ∃ lsns, (plan.tasks name)[task]? = some lsns ∧
      ∀ lsn ∈ lsns, .batch name task lsn ∈ log := by
    rw [doneTasks_snoc] at member
    rcases mem_append.mp member with earlier | now
    · exact counters.known task earlier
    · cases event with
      | taskDone tableName last =>
        by_cases same : tableName = name
        · subst same
          obtain rfl : task = last := by simpa [doneTasks] using now
          exact admissible.2.2
        · simp [doneTasks, same] at now
      | _ => simp [doneTasks] at now
  obtain ⟨lsns, found, batches⟩ := reported
  exact ⟨lsns, found, fun lsn inside => mem_append_left _ (batches lsn inside)⟩

/-- An event keeps the counters right. -/
theorem step (admissible : MayReport plan log event) (reportEvery : Int) :
    Counters plan name (log ++ [event]) (next reportEvery name table plan event) := by
  have dispatched : (next reportEvery name table plan event).dispatched = true ↔
      .dispatched name ∈ log ++ [event] := by
    rw [next_dispatched, counters.dispatched, mem_append, mem_singleton, eq_comm]
  refine ⟨?_, distinct_snoc counters.distinct admissible, counters.known_snoc admissible,
    dispatched, ?_, ?_, ?_, ?_, ?_⟩
  · rw [next_doneTasks, counters.done, doneTasks_snoc, length_append]
  · intro member
    rcases mem_append.mp member with earlier | now
    · exact (counters.begun earlier).snoc
    · obtain rfl := mem_singleton.mp now
      exact IsStarted.snoc admissible
  · intro isDispatched
    rcases next_tasksCount reportEvery name table plan event with same | planned
    · rcases (next_dispatched ..).mp isDispatched with before | rfl
      · rw [same]
        exact counters.tasksCount before
      · simp [next, progressAfter, report]
    · exact planned
  · intro task lsn member
    obtain ⟨raised, taken⟩ := progressAfter_maxLSN reportEvery name table (plan.report event)
    rcases mem_append.mp member with earlier | now
    · exact (counters.reported task lsn earlier).trans raised
    · obtain rfl := mem_singleton.mp now
      exact taken lsn rfl
  · rcases next_maxLSN reportEvery name table plan event with same | ⟨task, reported⟩
    · rw [same]
      exact counters.maxLSN
    · rw [reported] at admissible
      obtain ⟨-, -, lsns, found, inside⟩ := admissible
      exact .inr ⟨lsns, mem_of_getElem? found, inside⟩
  · rw [next_processedRows, counters.rows, reportedRows_snoc, sum_append]

theorem within : doneTasks name log ⊆ List.range (plan.tasks name).length := by
  intro task member
  obtain ⟨lsns, found, -⟩ := counters.known task member
  exact List.mem_range.mpr (List.getElem?_eq_some_iff.mp found).1

end

variable {ackedLSN task : Nat}

section

variable (counters : Counters plan name log table)

include counters

theorem all_done (isDone : table.isDone ackedLSN = true)
    (planned : task < (plan.tasks name).length) : task ∈ doneTasks name log := by
  -- As many different tasks are done as there are.
  obtain ⟨counted, isDispatched, -, -⟩ := table.isDone_iff.mp isDone
  have enough : (List.range (plan.tasks name).length).length ≤ (doneTasks name log).length := by
    rw [length_range, ← counters.done, counted, counters.tasksCount isDispatched]
  have all := (counters.distinct.subperm counters.within).perm_of_length_le enough
  exact all.mem_iff.mpr (mem_range.mpr planned)

theorem not_isDone (isOpen : task ∉ doneTasks name log) {lsns : List Nat}
    (found : (plan.tasks name)[task]? = some lsns) : table.isDone ackedLSN = false := by
  rw [Bool.eq_false_iff]
  intro isDone
  exact isOpen (counters.all_done isDone (List.getElem?_eq_some_iff.mp found).1)

theorem all_acked (isDone : table.isDone ackedLSN = true) :
    ∀ lsns ∈ plan.tasks name, ∀ lsn ∈ lsns, lsn ≤ ackedLSN := by
  intro lsns planned lsn inside
  obtain ⟨task, found⟩ := List.mem_iff_getElem?.mp planned
  have done := counters.all_done isDone (List.getElem?_eq_some_iff.mp found).1
  obtain ⟨others, same, batches⟩ := counters.known task done
  obtain rfl := Option.some.inj (found.symm.trans same)
  exact (counters.reported task lsn (batches lsn inside)).trans (table.isDone_iff.mp isDone).2.2.1

/-- A table with all tasks done and batches acknowledged is done. -/
theorem isDone (isDispatched : .dispatched name ∈ log)
    (done : ∀ task < (plan.tasks name).length, task ∈ doneTasks name log)
    (batches : ∃ lsns ∈ plan.tasks name, lsns ≠ [])
    (acked : ∀ lsns ∈ plan.tasks name, ∀ lsn ∈ lsns, lsn ≤ ackedLSN) :
    table.isDone ackedLSN = true := by
  have isDispatched := counters.dispatched.mpr isDispatched
  refine table.isDone_iff.mpr ⟨?_, isDispatched, ?_, ?_⟩
  · have all : List.range (plan.tasks name).length ⊆ doneTasks name log :=
      fun task member => done task (mem_range.mp member)
    have most := (counters.distinct.subperm counters.within).length_le
    have least := (nodup_range.subperm all).length_le
    rw [length_range] at most least
    rw [counters.done, counters.tasksCount isDispatched]
    exact Nat.le_antisymm most least
  · rcases counters.maxLSN with none | ⟨lsns, planned, inside⟩
    · omega
    · exact acked lsns planned _ inside
  · -- Some batch has been reported, and its number is not zero.
    obtain ⟨lsns, planned, filled⟩ := batches
    obtain ⟨lsn, inside⟩ := exists_mem_of_ne_nil lsns filled
    obtain ⟨task, found⟩ := mem_iff_getElem?.mp planned
    obtain ⟨others, same, reported⟩ :=
      counters.known task (done task (List.getElem?_eq_some_iff.mp found).1)
    obtain rfl := Option.some.inj (found.symm.trans same)
    have bound := counters.reported task lsn (reported lsn inside)
    have positive := plan.positive name lsns planned lsn inside
    omega

end

end Counters

theorem StoredProgress.updateProgress_rows {stored : StoredProgress} {rows : Int}
    {current : SnapshotStatus} (kind : current = .inProgress ∨ current = .completed)
    (same : stored.processedRows = rows ∨ 0 < rows) :
    (stored.updateProgress rows current none).processedRows = rows := by
  by_cases positive : rows > 0
  · rcases kind with rfl | rfl <;> simp [updateProgress, positive]
  · have kept : stored.processedRows = rows := same.resolve_right positive
    rcases kind with rfl | rfl <;> simp [updateProgress, positive, kept]

/-- What the memory and the store say about the events so far. -/
structure UpToDate (name : String) (log : List SnapshotEvent) (v : TableView) : Prop where
  status : IsStarted name log → (v.state.status = .completed ↔ v.table.isDone v.ackedLSN = true)
  stored : v.table.isDone v.ackedLSN = true → v.stored.status = .completed
  rows : v.state.processedRows = v.table.processedRows
  storedRows : (∀ rows ∈ reportedRows name log, 0 ≤ rows) →
    v.stored.processedRows = v.table.processedRows
  acked : ∀ lsn, .acked lsn ∈ log → lsn ≤ v.ackedLSN

namespace UpToDate

variable {v : TableView} {next : SnapshotTableProgress}

/-- A changed table is reported up to date. -/
theorem changed {asked : Bool}
    (status : v.state.status = .completed → next.isDone v.ackedLSN = true)
    (rows : v.state.processedRows = next.processedRows)
    (storedRows : (∀ rows ∈ reportedRows name log, 0 ≤ rows) →
      v.stored.processedRows = next.processedRows)
    (acked : ∀ lsn, .acked lsn ∈ log → lsn ≤ v.ackedLSN) :
    UpToDate name log (v.changed next asked) := by
  refine ⟨fun _ => ?_, fun isDone => ?_, ?_, fun positive => ?_, acked⟩
  · simp only [TableView.changed]
    split
    · rename_i isDone
      simp [isDone]
    · rename_i isOpen
      exact ⟨status, fun isDone => absurd isDone isOpen⟩
  · have isDone : next.isDone v.ackedLSN = true := isDone
    simp [TableView.changed, isDone]
  · simp only [TableView.changed]
    split <;> exact rows
  · simp only [TableView.changed]
    split
    · exact updateProgress_rows (.inr rfl) (.inl (storedRows positive))
    · exact storedRows positive

theorem acked_snoc (settled : UpToDate name log v) (noAck : ∀ lsn, event ≠ .acked lsn) :
    ∀ lsn, .acked lsn ∈ log ++ [event] → lsn ≤ v.ackedLSN := by
  intro lsn member
  rcases mem_append.mp member with earlier | now
  · exact settled.acked lsn earlier
  · exact absurd (mem_singleton.mp now).symm (noAck lsn)

theorem other (settled : UpToDate name log v)
    (noStart : ∀ totalRows, event ≠ .started name totalRows)
    (noRows : reportedRows name [event] = []) (noAck : ∀ lsn, event ≠ .acked lsn) :
    UpToDate name (log ++ [event]) v := by
  have rows : reportedRows name (log ++ [event]) = reportedRows name log := by
    rw [reportedRows_snoc, noRows, append_nil]
  refine ⟨fun started => settled.status ?_, settled.stored, settled.rows, ?_,
    settled.acked_snoc noAck⟩
  · obtain ⟨totalRows, member⟩ := started
    rcases mem_append.mp member with earlier | now
    · exact ⟨totalRows, earlier⟩
    · exact absurd (mem_singleton.mp now).symm (noStart totalRows)
  · rw [rows]
    exact settled.storedRows

theorem change (settled : UpToDate name log v) (started : IsStarted name log) (asked : Bool)
    (kept : v.table.isDone v.ackedLSN = true → next.isDone v.ackedLSN = true)
    (same : next.processedRows = v.table.processedRows)
    (noRows : reportedRows name [event] = []) (noAck : ∀ lsn, event ≠ .acked lsn) :
    UpToDate name (log ++ [event]) (v.changed next asked) := by
  refine changed (fun completed => kept ((settled.status started).mp completed)) ?_ ?_
    (settled.acked_snoc noAck)
  · rw [same]
    exact settled.rows
  · rw [same, reportedRows_snoc, noRows, append_nil]
    exact settled.storedRows

section

variable (settled : UpToDate name log v) (counters : Counters plan name log v.table)

include settled counters

theorem start (unstarted : ¬ IsStarted name log) (totalRows : Int) :
    UpToDate name (log ++ [.started name totalRows]) { v with
      table := { v.table with totalRows := totalRows }
      state := { v.state with totalRows := some totalRows, status := .inProgress } } := by
  have isOpen : ¬ v.table.isDone v.ackedLSN = true := by
    intro isDone
    have dispatched := (v.table.isDone_iff.mp isDone).2.1
    exact unstarted (counters.begun (counters.dispatched.mp dispatched))
  refine ⟨fun _ => ⟨nofun, fun isDone => absurd isDone isOpen⟩,
    fun isDone => absurd isDone isOpen, settled.rows, ?_, settled.acked_snoc nofun⟩
  rw [reportedRows_snoc, show reportedRows name [.started name totalRows] = [] from rfl,
    append_nil]
  exact settled.storedRows

/-- Rows that are added are reported in time. -/
theorem added (started : IsStarted name log) {rows : Int}
    (sum : next.processedRows = v.table.processedRows + rows)
    (same : next.isDone v.ackedLSN = v.table.isDone v.ackedLSN) :
    UpToDate name (log ++ [.rangeDone name rows]) (TableView.changed { v with
      state := { v.state with processedRows := next.processedRows }
      stored := v.stored.updateProgress next.processedRows .inProgress none } next false) := by
  -- Without new rows those that are stored are right already.
  have found : reportedRows name [.rangeDone name rows] = [rows] := by simp [reportedRows]
  refine changed ?_ rfl ?_ (settled.acked_snoc nofun)
  · intro completed
    rw [same]
    exact (settled.status started).mp completed
  · rw [reportedRows_snoc, found]
    intro positive
    refine updateProgress_rows (.inl rfl) ?_
    have earlier : ∀ some ∈ reportedRows name log, 0 ≤ some :=
      fun some member => positive some (mem_append_left _ member)
    have stored := settled.storedRows earlier
    have total : 0 ≤ v.table.processedRows := by
      rw [counters.rows]
      exact sum_nonneg earlier
    have now := positive rows (by simp)
    rcases now.lt_or_eq with more | none
    · right
      omega
    · left
      omega

/-- An acknowledgement is reported in time. -/
theorem ack (reportEvery : Int) (lsn : Nat) :
    UpToDate name (log ++ [.acked lsn]) (v.after reportEvery name (.lsnAck lsn)) := by
  -- Whether the table is done depends on the position too.
  have noRows : reportedRows name (log ++ [.acked lsn]) = reportedRows name log := by
    rw [reportedRows_snoc]
    exact append_nil _
  have earlier : IsStarted name (log ++ [.acked lsn]) → IsStarted name log := by
    rintro ⟨totalRows, member⟩
    exact ⟨totalRows, by simpa using member⟩
  simp only [after]
  split
  · -- An older acknowledgement changes nothing.
    rename_i older
    refine ⟨fun started => settled.status (earlier started), settled.stored, settled.rows,
      noRows ▸ settled.storedRows, fun acked member => ?_⟩
    rcases mem_append.mp member with before | now
    · exact settled.acked acked before
    · cases mem_singleton.mp now
      exact older
  have raised : ∀ acked, .acked acked ∈ log ++ [.acked lsn] → acked ≤ lsn := by
    intro acked member
    rcases mem_append.mp member with before | now
    · have bound := settled.acked acked before
      omega
    · cases mem_singleton.mp now
      exact le_refl _
  split
  · rename_i completes
    refine ⟨fun _ => iff_of_true rfl completes.1,
      fun _ => updateProgress_completed .., settled.rows, fun positive => ?_, raised⟩
    simpa [updateProgress] using settled.storedRows (noRows ▸ positive)
  · rename_i passed
    have completed : v.table.isDone lsn = true → v.state.status = .completed := by
      intro isDone
      by_contra isOpen
      exact passed ⟨isDone, isOpen⟩
    refine ⟨fun started => ⟨fun done => ?_, completed⟩, fun isDone => ?_, settled.rows,
      noRows ▸ settled.storedRows, raised⟩
    · obtain ⟨counted, dispatched, bound, positive⟩ :=
        v.table.isDone_iff.mp ((settled.status (earlier started)).mp done)
      have reached : v.table.maxLSN ≤ lsn := by omega
      exact v.table.isDone_iff.mpr ⟨counted, dispatched, reached, positive⟩
    · -- A table that is completed already was stored as completed then.
      have dispatched := counters.dispatched.mp (v.table.isDone_iff.mp isDone).2.1
      exact settled.stored ((settled.status (counters.begun dispatched)).mp (completed isDone))

/-- Every event keeps the view up to date. -/
theorem step (admissible : MayReport plan log event) (reportEvery : Int) :
    UpToDate name (log ++ [event]) (v.after reportEvery name (plan.report event)) := by
  -- A table that is done was dispatched with as many tasks.
  cases event with
  | acked lsn => exact settled.ack counters reportEvery lsn
  | started tableName totalRows =>
    by_cases same : name = tableName
    · subst same
      simpa [after, report, progressAfter] using
        settled.start counters admissible totalRows
    · simp only [after, report, if_neg same]
      exact settled.other (by simp [Ne.symm same]) rfl (by simp)
  | dispatched tableName =>
    by_cases same : name = tableName
    · subst same
      simp only [after, report, progressAfter, if_true]
      refine settled.change admissible _ (fun isDone => ?_) rfl rfl (by simp)
      obtain ⟨counted, dispatched, bound, positive⟩ := v.table.isDone_iff.mp isDone
      have planned := counters.tasksCount dispatched
      exact (SnapshotTableProgress.isDone_iff _).mpr ⟨counted.trans planned, rfl, bound, positive⟩
    · simp only [after, report, if_neg same]
      exact settled.other (by simp) rfl (by simp)
  | batch tableName task lsn =>
    by_cases same : name = tableName
    · subst same
      obtain ⟨started, isOpen, lsns, found, -⟩ := admissible
      simp only [after, report, if_true]
      refine settled.change started _ (fun isDone => ?_) ?_ rfl (by simp)
      · rw [counters.not_isDone isOpen found] at isDone
        cases isDone
      · simp only [progressAfter, if_true]
        split <;> rfl
    · simp only [after, report, if_neg same]
      exact settled.other (by simp) rfl (by simp)
  | taskDone tableName task =>
    by_cases same : name = tableName
    · subst same
      obtain ⟨started, isOpen, lsns, found, -⟩ := admissible
      simp only [after, report, progressAfter, if_true]
      refine settled.change started _ (fun isDone => ?_) rfl rfl (by simp)
      rw [counters.not_isDone isOpen found] at isDone
      cases isDone
    · simp only [after, report, if_neg same]
      exact settled.other (by simp) rfl (by simp)
  | rangeDone tableName rows =>
    by_cases same : name = tableName
    · subst same
      simp only [after, report, progressAfter, if_true]
      exact settled.added counters admissible rfl rfl
    · simp only [after, report, if_neg same]
      exact settled.other (by simp) (by simp [reportedRows, Ne.symm same]) (by simp)

end

end UpToDate

/-- The progress, with the events that have been reported. -/
structure ReportedRun where
  progress : ProgressState
  log : List SnapshotEvent

/-- The tables at the start, as they are in memory and in the store. -/
def reportedStart (count : Nat) (states : TableMemory) (stored : StoredTables) : ReportedRun where
  progress := ⟨.newSnapshotProgressTracker count states 10, states, stored⟩
  log := []

def reportedStep (plan : SnapshotTasks) (s : ReportedRun) (event : SnapshotEvent) :
    Option ReportedRun :=
  some ⟨s.progress.take (plan.report event), s.log ++ [event]⟩

/-- What holds wherever admissible events lead, for the table at a place. -/
structure ReportedInv (plan : SnapshotTasks) (name : String) (index : Nat) (s : ReportedRun) :
    Prop where
  placed : s.progress.Placed
  view : ∃ v, s.progress.Sees name v ∧ v.table.tableState = index ∧
    Counters plan name s.log v.table ∧ UpToDate name s.log v

namespace ReportedInv

open SnapshotProgressTracker

variable {index : Nat}

variable {count : Nat} {states : TableMemory} {s : ReportedRun}

section

variable (known : index < count)
  (last : ∀ later, index < later → later < count →
    (states later).tableName ≠ (states index).tableName)

include known last

theorem find_last : ((List.range count).reverse.find? fun place =>
      (states place).tableName = (states index).tableName) = some index := by
  induction count with
  | zero => omega
  | succ count ih =>
    rw [range_succ, reverse_append]
    by_cases here : index = count
    · subst here
      simp
    · have other := last count (by omega) (by omega)
      simpa [other] using
        ih (by omega) fun later after within => last later after (by omega)

theorem start {stored : StoredTables} (noRows : (states index).processedRows = 0)
    (noStoredRows : (stored (states index).tableName).processedRows = 0) :
    ReportedInv plan (states index).tableName index (reportedStart count states stored) := by
  have tracked := Tracks.start count states 10
  refine ⟨⟨fun name table found => (tracked.place name table found).2, ?_⟩, ?_⟩
  · intro name table found
    obtain ⟨within, rfl⟩ := tracked.place name table found
    exact mem_dedup.mpr (mem_map_of_mem (mem_range.mpr within))
  · refine ⟨⟨⟨(states index).processedRows, 0, index, false, 0, 0,
      (states index).totalRows.getD 0, 0⟩, states index, stored (states index).tableName, 0⟩,
      ⟨?_, rfl, rfl, rfl⟩, rfl, ?_, ?_⟩
    · simp [reportedStart, newSnapshotProgressTracker, find_last known last]
    · exact ⟨rfl, nodup_nil, by simp [doneTasks, reportedStart], by simp [reportedStart],
        by simp [reportedStart], nofun, by simp [reportedStart], .inl rfl, noRows⟩
    · exact ⟨by simp [IsStarted, reportedStart], nofun, rfl, fun _ => by
        rw [noRows, noStoredRows], by simp [reportedStart]⟩

end

theorem step {next : ReportedRun} (inv : ReportedInv plan name index s)
    (admissible : MayReport plan s.log event) (taken : reportedStep plan s event = some next) :
    ReportedInv plan name index next := by
  -- The counters of the view are the ones of the table.
  cases taken
  obtain ⟨v, sees, place, counters, settled⟩ := inv.view
  have after : (v.after s.progress.tracker.reportEvery name (plan.report event)).table =
      Counters.next s.progress.tracker.reportEvery name v.table plan event := by
    cases event <;> simp only [TableView.after, report, Counters.next,
      progressAfter, changed] <;> split_ifs <;> rfl
  refine ⟨inv.placed.take _, v.after s.progress.tracker.reportEvery name (plan.report event),
    sees.take inv.placed _, ?_, ?_, settled.step counters admissible _⟩
  · rw [after, progressAfter_tableState, place]
  · rw [after]
    exact counters.step admissible _

/-- A report completes a table with tasks only when it is done. -/
theorem isDone_of_completes (inv : ReportedInv plan name index s) (tasks : plan.tasks name ≠ [])
    (completes : Completes name
      (s.progress.tracker.trackReport s.progress.states true (plan.report event)).2.2) :
    ∃ table, (s.progress.take (plan.report event)).tracker.tables name = some table ∧
      table.isDone (s.progress.take (plan.report event)).tracker.ackedLSN = true := by
  rcases completes_trackReport completes with empty | ⟨key, table, found, isDone, named⟩
  · cases event with
    | dispatched tableName =>
      rw [report, ProgressReport.tableDispatched.injEq] at empty
      obtain ⟨rfl, none⟩ := empty
      exact absurd (length_eq_zero_iff.mp none) tasks
    | _ => cases empty
  · -- The table at the place is the one under the name.
    have place := (inv.placed.take (plan.report event)).named key table found
    have kept := (@trackReport_states s.progress.tracker s.progress.states true
      (plan.report event) table.tableState).1
    have same : name = key := by
      rcases named with same | atPlace
      · exact same
      · rw [atPlace, ← kept]
        exact place
    exact ⟨table, same ▸ found, isDone⟩

end ReportedInv

/-- All of a table was reported, and its batches are acknowledged. -/
structure AllReported (plan : SnapshotTasks) (name : String) (log : List SnapshotEvent) : Prop where
  dispatched : .dispatched name ∈ log
  tasks : ∀ task < (plan.tasks name).length, task ∈ doneTasks name log
  acked : ∃ acked, .acked acked ∈ log ∧ ∀ lsns ∈ plan.tasks name, ∀ lsn ∈ lsns, lsn ≤ acked

/--
Whatever the order in which a table with a batch is reported, it is done only after all of it, and
then completed in memory and in the store with the rows of all reports.
-/
theorem snapshot_reports_confluent (plan : SnapshotTasks) {count index : Nat}
    {states : TableMemory} {stored : StoredTables} (known : index < count)
    (last : ∀ later, index < later → later < count →
      (states later).tableName ≠ (states index).tableName)
    (noRows : (states index).processedRows = 0)
    (noStoredRows : (stored (states index).tableName).processedRows = 0)
    (batches : ∃ lsns ∈ plan.tasks (states index).tableName, lsns ≠ [])
    {events : List SnapshotEvent} {s : ReportedRun}
    (admitted : Runs.Along (reportedStep plan) (fun s event => MayReport plan s.log event)
      (reportedStart count states stored) events)
    (reached : Runs.run (reportedStep plan) (reportedStart count states stored) events = some s) :
    (∀ event, MayReport plan s.log event → Completes (states index).tableName
        (s.progress.tracker.trackReport s.progress.states true (plan.report event)).2.2 →
      .dispatched (states index).tableName ∈ s.log ++ [event] ∧
        (∀ task < (plan.tasks (states index).tableName).length,
          task ∈ doneTasks (states index).tableName (s.log ++ [event])) ∧
        ∀ lsns ∈ plan.tasks (states index).tableName, ∀ lsn ∈ lsns,
          lsn ≤ (s.progress.take (plan.report event)).tracker.ackedLSN) ∧
      (AllReported plan (states index).tableName s.log →
        (s.progress.states index).status = .completed ∧
        (s.progress.stored (states index).tableName).status = .completed ∧
        (s.progress.states index).processedRows =
          (reportedRows (states index).tableName s.log).sum ∧
        ((∀ rows ∈ reportedRows (states index).tableName s.log, 0 ≤ rows) →
          (s.progress.stored (states index).tableName).processedRows =
            (reportedRows (states index).tableName s.log).sum)) := by
  -- The table is seen with counters that fit its log.
  have inv : ReportedInv plan (states index).tableName index s :=
    @Runs.invariant _ _ _ _ (ReportedInv plan (states index).tableName index)
      (fun _ _ _ inv admissible taken => inv.step admissible taken) _ _ _
      (.start known last noRows noStoredRows) admitted reached
  refine ⟨fun event admissible completes => ?_, fun all => ?_⟩
  · obtain ⟨lsns, planned, -⟩ := batches
    obtain ⟨table, found, isDone⟩ := inv.isDone_of_completes (ne_nil_of_mem planned) completes
    obtain ⟨v, sees, -, counters, -⟩ := (inv.step admissible rfl).view
    obtain rfl := Option.some.inj (found.symm.trans sees.table)
    refine ⟨counters.dispatched.mp (v.table.isDone_iff.mp isDone).2.1,
      fun task planned => counters.all_done isDone planned, counters.all_acked isDone⟩
  · obtain ⟨v, sees, place, counters, settled⟩ := inv.view
    obtain ⟨acked, reported, bound⟩ := all.acked
    have isDone : v.table.isDone v.ackedLSN = true := by
      refine counters.isDone all.dispatched all.tasks batches fun lsns planned lsn inside => ?_
      exact (bound lsns planned lsn inside).trans (settled.acked acked reported)
    have started := counters.begun all.dispatched
    have memory : s.progress.states index = v.state := by
      rw [sees.state, place]
    rw [memory, ← sees.stored, settled.rows, ← counters.rows]
    exact ⟨(settled.status started).mpr isDone, settled.stored isDone, rfl, settled.storedRows⟩

namespace Sample

/-- Two tasks with one batch each. -/
def twoTasks : SnapshotTasks where
  tasks _ := [[1], [2]]
  positive := by simp

/-- Tasks end before and after the table is dispatched, and rows come last. -/
def lateRows : List SnapshotEvent :=
  [.started "t" 4, .rangeDone "t" 1, .batch "t" 1 2, .taskDone "t" 1, .dispatched "t",
    .batch "t" 0 1, .acked 2, .taskDone "t" 0, .rangeDone "t" 2]

end Sample

open Sample

/-- The table is completed with all of its rows. -/
theorem snapshot_reports_confluent_late_rows :
    ∃ s, Runs.run (reportedStep twoTasks)
        (reportedStart 1 (fun _ => .new "t" "app") fun _ => ⟨0, .pending, none⟩) lateRows = some s ∧
      (s.progress.states 0).status = .completed ∧ (s.progress.stored "t").status = .completed ∧
      (s.progress.states 0).processedRows = 3 ∧ (s.progress.stored "t").processedRows = 3 := by
  refine ⟨_, rfl, ?_⟩
  have begun : ∀ rest, IsStarted "t" (.started "t" 4 :: rest) := fun rest => ⟨4, mem_cons_self⟩
  have admitted : Runs.Along (reportedStep twoTasks)
      (fun s event => MayReport twoTasks s.log event)
      (reportedStart 1 (fun _ => .new "t" "app") fun _ => ⟨0, .pending, none⟩) lateRows :=
    .cons (by simp [MayReport, IsStarted, reportedStart]) rfl <| .cons (begun _) rfl <|
      .cons ⟨begun _, by decide, [2], rfl, by decide⟩ rfl <|
      .cons ⟨begun _, by decide, [2], rfl, by decide⟩ rfl <|
      .cons (begun _) rfl <|
      .cons ⟨begun _, by decide, [1], rfl, by decide⟩ rfl <|
      .cons trivial rfl <|
      .cons ⟨begun _, by decide, [1], rfl, by decide⟩ rfl <|
      .last (begun _)
  obtain ⟨-, complete⟩ := snapshot_reports_confluent twoTasks Nat.one_pos (by omega) rfl rfl
    ⟨[1], by decide, by decide⟩ admitted rfl
  obtain ⟨memory, stored, rows, storedRows⟩ :=
    complete ⟨by decide, by decide, 2, by decide, by decide⟩
  exact ⟨memory, stored, rows, storedRows (by decide)⟩

end PgWalk
