import Mathlib.Data.List.Count
import PgWalk.Snapshot.Execute

/-! Progress of the tables of a snapshot, as it is put together from reports. -/

namespace PgWalk

open List

open Function (update update_of_ne update_self)

/-- A report on the way to the progress of a snapshot. -/
inductive ProgressReport
  | maxLSN (tableName : String) (lsn : Nat)
  | taskDone (tableName : String)
  | rangeDone (tableName : String) (rowsProcessed : Int)
  | lsnAck (lsn : Nat)
  | tableStarted (tableName : String) (totalRows : Int)
  | tableDispatched (tableName : String) (tasksCount : Nat)
deriving DecidableEq

/-- What a snapshot does to the stored and the remembered states. -/
inductive SnapshotEffect
  -- A table is stored as started.
  | setInProgress (tableName : String) (totalRows : Int)
  -- The progress of a table is stored.
  | updateProgress (tableName : String) (processedRows : Int) (status : SnapshotStatus)
      (errorMessage : Option String)
  -- The status of a table is set in memory.
  | status (tableName : String) (status : SnapshotStatus)
deriving DecidableEq

/-- Whether some effect sets or stores a table as completed. -/
def Completes (tableName : String) (effects : List SnapshotEffect) : Prop :=
  ∃ effect ∈ effects, (∃ rows message, effect = .updateProgress tableName rows .completed message) ∨
    effect = .status tableName .completed

variable {tableName : String}

theorem completes_append {first rest : List SnapshotEffect} : Completes tableName (first ++ rest) ↔
      Completes tableName first ∨ Completes tableName rest := by
  simp [Completes, or_and_right, exists_or]

theorem not_completes_nil : ¬ Completes tableName [] := by
  simp [Completes]

structure SnapshotTableProgress where
  processedRows : Int
  processedSinceLastReport : Int
  -- The place of the table's state in memory.
  tableState : Nat
  dispatched : Bool
  tasksCount : Nat
  doneTasks : Nat
  totalRows : Int
  maxLSN : Nat

/-- Whether a table's tasks are done and its batches acknowledged. -/
def SnapshotTableProgress.isDone (table : SnapshotTableProgress) (maxAck : Nat) : Bool :=
  decide (table.doneTasks = table.tasksCount) && table.dispatched &&
    decide (table.maxLSN ≤ maxAck) && decide (table.maxLSN > 0)

abbrev TableMemory := Nat → TableState

def TableMemory.setStatus (states : TableMemory) (index : Nat) (status : SnapshotStatus) :
    TableMemory :=
  update states index { states index with status := status }

/-- The progress of all tables by their names. -/
structure SnapshotProgressTracker where
  tables : String → Option SnapshotTableProgress
  -- The names in the map, in the order of an iteration.
  tableNames : List String
  reportEvery : Int
  ackedLSN : Nat

/-- What a report does: to the progress, to the memory, as effects. -/
structure ProgressOutcome where
  tracker : SnapshotProgressTracker
  states : TableMemory
  effects : List SnapshotEffect
  processedRows : Int
  totalRows : Int
  done : Bool

namespace SnapshotProgressTracker

/-- The progress at the start; a later table of one name replaces an earlier. -/
def newSnapshotProgressTracker (count : Nat) (states : TableMemory) (reportEvery : Int) :
    SnapshotProgressTracker where
  tables name := ((List.range count).reverse.find? fun index =>
    (states index).tableName = name).map fun index => {
      processedRows := (states index).processedRows
      processedSinceLastReport := 0
      tableState := index
      dispatched := false
      tasksCount := 0
      doneTasks := 0
      totalRows := (states index).totalRows.getD 0
      maxLSN := 0 }
  tableNames := ((List.range count).map fun index => (states index).tableName).dedup
  reportEvery := reportEvery
  ackedLSN := 0

variable (t : SnapshotProgressTracker) (states : TableMemory) (tableName : String)

/-- Change a table's progress, and complete the table when it is done. -/
def change (f : SnapshotTableProgress → SnapshotTableProgress) : ProgressOutcome :=
  match t.tables tableName with
  | none => ⟨t, states, [], 0, 0, false⟩
  | some before =>
    let table := f before
    let done := table.isDone t.ackedLSN
    { tracker := { t with tables := update t.tables tableName (some table) }
      states := if done then states.setStatus table.tableState .completed else states
      effects := if done then [.status (states table.tableState).tableName .completed] else []
      processedRows := table.processedRows
      totalRows := table.totalRows
      done := done }

/-- A table has been started with an estimate of its rows. -/
def markStarted (totalRows : Int) : ProgressOutcome :=
  match t.tables tableName with
  | none => ⟨t, states, [], 0, 0, false⟩
  | some table =>
    { tracker := { t with
        tables := update t.tables tableName (some { table with totalRows := totalRows }) }
      states := update states table.tableState { states table.tableState with
        totalRows := some totalRows
        status := .inProgress }
      effects := [.status (states table.tableState).tableName .inProgress]
      processedRows := 0
      totalRows := 0
      done := false }

/-- All tasks of a table have been sent. -/
def markDispatched (tasksCount : Nat) : ProgressOutcome :=
  t.change states tableName fun table =>
    { table with dispatched := true, tasksCount := tasksCount }

def addMaxLSN (maxLSN : Nat) : ProgressOutcome :=
  t.change states tableName fun table =>
    if table.maxLSN < maxLSN then { table with maxLSN := maxLSN } else table

def completeTask : ProgressOutcome :=
  t.change states tableName fun table => { table with doneTasks := table.doneTasks + 1 }

/-- How the rows since the last line in the log are counted. -/
def sinceLastReport (reportEvery : Int) (table : SnapshotTableProgress) (rows : Int) : Int :=
  if table.totalRows > 0 ∧ reportEvery > 0 ∧ reportEvery < 100 then
    let since := table.processedSinceLastReport + rows
    if since ≥ (table.totalRows * reportEvery).tdiv 100 then 0 else since
  else table.processedSinceLastReport

/-- Rows of a table have been written. -/
def add (rowsProcessed : Int) : ProgressOutcome :=
  -- The new number of rows is visible in memory before the table may be completed.
  let states := match t.tables tableName with
    | none => states
    | some table => update states table.tableState { states table.tableState with
        processedRows := table.processedRows + rowsProcessed }
  t.change states tableName fun table => { table with
    processedRows := table.processedRows + rowsProcessed
    processedSinceLastReport := sinceLastReport t.reportEvery table rowsProcessed }

/-- Complete a table after an acknowledgement, if done and not yet complete. -/
def ackTable (lsn : Nat)
    (done : TableMemory × List String) (tableName : String) : TableMemory × List String :=
  match t.tables tableName with
  | none => done
  | some table =>
    if table.isDone lsn ∧ (done.1 table.tableState).status ≠ .completed then
      (done.1.setStatus table.tableState .completed,
        done.2 ++ [(done.1 table.tableState).tableName])
    else done

/-- Everything up to a position has been acknowledged. -/
def ack (lsn : Nat) : SnapshotProgressTracker × TableMemory × List String :=
  if lsn ≤ t.ackedLSN then (t, states, [])
  else ({ t with ackedLSN := lsn }, t.tableNames.foldl (t.ackTable lsn) (states, []))

end SnapshotProgressTracker

def setTableCompleted (tableName : String) (processedRows : Int) : SnapshotEffect :=
  .updateProgress tableName processedRows .completed none

namespace SnapshotProgressTracker

/-- Take one report, which ends where storing a table's rows fails. -/
def trackReport (t : SnapshotProgressTracker) (states : TableMemory) (stored : Bool) :
    ProgressReport → SnapshotProgressTracker × TableMemory × List SnapshotEffect
  | .tableStarted tableName totalRows =>
    let outcome := t.markStarted states tableName totalRows
    (outcome.tracker, outcome.states, outcome.effects)
  | .tableDispatched tableName tasksCount =>
    let outcome := t.markDispatched states tableName tasksCount
    (outcome.tracker, outcome.states, outcome.effects ++
      -- A table without tasks is done as soon as that is known.
      if tasksCount = 0 ∨ outcome.done then [setTableCompleted tableName outcome.processedRows]
      else [])
  | .maxLSN tableName lsn =>
    let outcome := t.addMaxLSN states tableName lsn
    (outcome.tracker, outcome.states, outcome.effects ++
      if outcome.done then [setTableCompleted tableName outcome.processedRows] else [])
  | .taskDone tableName =>
    let outcome := t.completeTask states tableName
    (outcome.tracker, outcome.states, outcome.effects ++
      if outcome.done then [setTableCompleted tableName outcome.processedRows] else [])
  | .lsnAck lsn =>
    let (tracker, states, tablesDone) := t.ack states lsn
    (tracker, states, tablesDone.map (.status · .completed) ++
      tablesDone.map fun table => setTableCompleted table 0)
  | .rangeDone tableName rowsProcessed =>
    let outcome := t.add states tableName rowsProcessed
    (outcome.tracker, outcome.states, outcome.effects ++
      [.updateProgress tableName outcome.processedRows .inProgress none] ++
      if stored ∧ outcome.done then [setTableCompleted tableName outcome.processedRows] else [])

variable {t : SnapshotProgressTracker} {states : TableMemory}

theorem change_tables (tableName : String) (f : SnapshotTableProgress → SnapshotTableProgress)
    (name : String) : (t.change states tableName f).tracker.tables name =
      (t.tables name).map fun table => if name = tableName then f table else table := by
  -- A table that is not tracked is changed under no name.
  simp only [change]
  by_cases same : name = tableName
  · subst same
    cases found : t.tables name <;> simp [found]
  · cases found : t.tables tableName <;> cases other : t.tables name <;> simp [same, other]

theorem change_ackedLSN (tableName : String) (f : SnapshotTableProgress → SnapshotTableProgress) :
    (t.change states tableName f).tracker.ackedLSN = t.ackedLSN := by
  simp only [change]
  split <;> rfl

variable {name tableName : String} {f : SnapshotTableProgress → SnapshotTableProgress}

theorem change_done (done : (t.change states tableName f).done = true) :
    ∃ table, (t.change states tableName f).tracker.tables tableName = some table ∧
      table.isDone t.ackedLSN = true := by
  -- Without a table there is nothing that could be done.
  simp only [change] at done ⊢
  cases found : t.tables tableName with
  | none => simp [found] at done
  | some table =>
    simp only [found] at done ⊢
    exact ⟨f table, update_self .., done⟩

theorem completes_change (completes : Completes name (t.change states tableName f).effects) :
    ∃ table, (t.change states tableName f).tracker.tables tableName = some table ∧
      table.isDone t.ackedLSN = true ∧ name = (states table.tableState).tableName := by
  -- The effect is there only when the changed progress is done.
  simp only [change] at completes ⊢
  cases found : t.tables tableName with
  | none =>
    simp only [found] at completes
    exact absurd completes not_completes_nil
  | some table =>
    simp only [found] at completes ⊢
    split at completes
    · rename_i done
      refine ⟨f table, update_self .., done, ?_⟩
      simpa [Completes, eq_comm] using completes
    · exact absurd completes not_completes_nil

/-- A change sets its own table completed, and no other. -/
theorem change_states (tableName : String) (f : SnapshotTableProgress → SnapshotTableProgress)
    (index : Nat) :
    ((t.change states tableName f).states index).tableName = (states index).tableName ∧
      (((t.change states tableName f).states index).status = (states index).status ∨
        ((t.change states tableName f).states index).status = .completed ∧
          Completes (states index).tableName (t.change states tableName f).effects) := by
  simp only [change]
  cases found : t.tables tableName with
  | none => exact ⟨rfl, .inl rfl⟩
  | some table =>
    simp only
    split
    · -- The status is set at the place of the changed table and nowhere else.
      by_cases same : index = (f table).tableState
      · subst same
        simp [TableMemory.setStatus, Completes]
      · simp [TableMemory.setStatus, update_of_ne same]
    · exact ⟨rfl, .inl rfl⟩

/-- What the tables completed by an acknowledgement share with the memory. -/
structure Acknowledges (t : SnapshotProgressTracker) (lsn : Nat) (states : TableMemory)
    (done : TableMemory × List String) : Prop where
  named : ∀ index, (done.1 index).tableName = (states index).tableName
  changed : ∀ index, (done.1 index).status = (states index).status ∨
    (done.1 index).status = .completed ∧ (states index).tableName ∈ done.2
  isDone : ∀ name ∈ done.2, ∃ key table, t.tables key = some table ∧ table.isDone lsn = true ∧
    name = (states table.tableState).tableName

theorem acknowledges_nil (t : SnapshotProgressTracker) (lsn : Nat) (states : TableMemory) :
    Acknowledges t lsn states (states, []) :=
  ⟨fun _ => rfl, fun _ => .inl rfl, by simp⟩

variable {done : TableMemory × List String} {asked : Prop} {rows : Int}

/-- Looking at one more table acknowledges it. -/
theorem Acknowledges.ackTable {lsn : Nat} (acknowledges : Acknowledges t lsn states done)
    (tableName : String) : Acknowledges t lsn states (t.ackTable lsn done tableName) := by
  -- A table that is not done, or completed already, is passed over.
  simp only [SnapshotProgressTracker.ackTable]
  cases found : t.tables tableName with
  | none => exact acknowledges
  | some table =>
    simp only
    split
    swap
    · exact acknowledges
    rename_i completes
    refine ⟨fun index => ?_, fun index => ?_, fun name member => ?_⟩
    · -- Setting a status leaves the name at its place.
      by_cases same : index = table.tableState
      · subst same
        simpa [TableMemory.setStatus] using acknowledges.named table.tableState
      · simpa [TableMemory.setStatus, update_of_ne same] using acknowledges.named index
    · -- The place of the table gets the status, and its name goes on the list with it.
      by_cases same : index = table.tableState
      · subst same
        refine .inr ⟨by simp [TableMemory.setStatus], ?_⟩
        rw [acknowledges.named]
        exact mem_append_right _ mem_cons_self
      · rcases acknowledges.changed index with kept | ⟨completed, member⟩
        · exact .inl (by simpa [TableMemory.setStatus, update_of_ne same] using kept)
        · refine .inr ⟨?_, mem_append_left _ member⟩
          simpa [TableMemory.setStatus, update_of_ne same] using completed
    · -- A name on the list was put there before, or it is the one of this table.
      rcases mem_append.mp member with earlier | now
      · exact acknowledges.isDone name earlier
      · refine ⟨tableName, table, found, completes.1, ?_⟩
        rw [mem_singleton.mp now, acknowledges.named]

theorem acknowledges_foldl (lsn : Nat) (names : List String)
    (acknowledges : Acknowledges t lsn states done) :
    Acknowledges t lsn states (names.foldl (t.ackTable lsn) done) := by
  -- By induction on the names, one table after the other.
  induction names generalizing done with
  | nil => exact acknowledges
  | cons name rest ih => exact ih (acknowledges.ackTable name)

theorem completes_acked {names : List String} : Completes name (names.map (.status · .completed) ++
      names.map fun table => setTableCompleted table 0) ↔ name ∈ names := by
  -- Each name is set in memory and stored; either gives it back.
  constructor
  · rintro ⟨effect, member, completes⟩
    rcases mem_append.mp member with set | stored
    · obtain ⟨other, listed, rfl⟩ := mem_map.mp set
      have same : other = name := by simpa using completes
      exact same ▸ listed
    · obtain ⟨other, listed, rfl⟩ := mem_map.mp stored
      have same : other = name := by simpa [setTableCompleted] using completes
      exact same ▸ listed
  · intro listed
    exact ⟨_, mem_append_left _ (mem_map_of_mem listed), .inr rfl⟩

def progressAfter (reportEvery : Int) (name : String) (table : SnapshotTableProgress) :
    ProgressReport → SnapshotTableProgress
  | .tableStarted tableName totalRows =>
    if name = tableName then { table with totalRows := totalRows } else table
  | .tableDispatched tableName tasksCount =>
    if name = tableName then { table with dispatched := true, tasksCount := tasksCount } else table
  | .maxLSN tableName lsn =>
    if name = tableName then
      if table.maxLSN < lsn then { table with maxLSN := lsn } else table
    else table
  | .taskDone tableName =>
    if name = tableName then { table with doneTasks := table.doneTasks + 1 } else table
  | .rangeDone tableName rowsProcessed =>
    if name = tableName then { table with
      processedRows := table.processedRows + rowsProcessed
      processedSinceLastReport := sinceLastReport reportEvery table rowsProcessed }
    else table
  | .lsnAck _ => table

section

variable (reportEvery : Int) (name : String) (table : SnapshotTableProgress)
  (report : ProgressReport)

theorem progressAfter_tableState :
    (progressAfter reportEvery name table report).tableState = table.tableState := by
  cases report <;> simp only [progressAfter] <;> split_ifs <;> rfl

theorem progressAfter_doneTasks : (progressAfter reportEvery name table report).doneTasks =
    table.doneTasks + if report = .taskDone name then 1 else 0 := by
  cases report <;> simp only [progressAfter] <;> split_ifs <;> simp_all

theorem progressAfter_dispatched :
    (progressAfter reportEvery name table report).dispatched = table.dispatched ∧
        (progressAfter reportEvery name table report).tasksCount = table.tasksCount ∨
      report = .tableDispatched name (progressAfter reportEvery name table report).tasksCount := by
  cases report with
  | lsnAck lsn => exact .inl ⟨rfl, rfl⟩
  | tableDispatched tableName tasksCount =>
    simp only [progressAfter]
    split_ifs with same
    · exact .inr (same ▸ rfl)
    · exact .inl ⟨rfl, rfl⟩
  | _ =>
    left
    simp only [progressAfter]
    split_ifs <;> exact ⟨rfl, rfl⟩

/-- The greatest number takes in those reported. -/
theorem progressAfter_maxLSN :
    table.maxLSN ≤ (progressAfter reportEvery name table report).maxLSN ∧
      ∀ lsn, report = .maxLSN name lsn →
        lsn ≤ (progressAfter reportEvery name table report).maxLSN := by
  constructor
  · cases report with
    | lsnAck lsn => exact le_refl _
    | maxLSN tableName lsn =>
      simp only [progressAfter]
      split_ifs with same raised
      · exact Nat.le_of_lt raised
      · exact le_refl _
      · exact le_refl _
    | _ =>
      simp only [progressAfter]
      split_ifs <;> exact le_refl _
  · rintro lsn rfl
    simp only [progressAfter, if_true]
    split_ifs with raised
    · exact le_refl _
    · exact Nat.not_lt.mp raised

end

/-- A report changes each table for itself. -/
theorem trackReport_tables (stored : Bool) (report : ProgressReport) (name : String) :
    (t.trackReport states stored report).1.tables name =
      (t.tables name).map fun table => progressAfter t.reportEvery name table report := by
  cases report with
  | tableStarted tableName totalRows =>
    simp only [trackReport, markStarted, progressAfter]
    by_cases same : name = tableName
    · subst same
      cases found : t.tables name <;> simp [found]
    · cases found : t.tables tableName <;> cases other : t.tables name <;> simp [same, other]
  | tableDispatched tableName tasksCount => exact change_tables ..
  | maxLSN tableName lsn => exact change_tables ..
  | taskDone tableName => exact change_tables ..
  | rangeDone tableName rowsProcessed => exact change_tables ..
  | lsnAck lsn =>
    simp only [trackReport, ack, progressAfter]
    split <;> simp

theorem trackReport_ackedLSN (stored : Bool) (report : ProgressReport) :
    (t.trackReport states stored report).1.ackedLSN = t.ackedLSN ∨
      report = .lsnAck (t.trackReport states stored report).1.ackedLSN := by
  cases report with
  | tableStarted tableName totalRows =>
    simp only [trackReport, markStarted]
    split <;> exact .inl rfl
  | tableDispatched tableName tasksCount | maxLSN tableName lsn
  | taskDone tableName | rangeDone tableName rowsProcessed => exact .inl (change_ackedLSN ..)
  | lsnAck lsn =>
    simp only [trackReport, ack]
    split
    · exact .inl rfl
    · exact .inr rfl

theorem completes_setTableCompleted [Decidable asked]
    (completes : Completes name (if asked then [setTableCompleted tableName rows] else [])) :
    asked ∧ name = tableName := by
  split at completes
  · rename_i holds
    refine ⟨holds, ?_⟩
    simpa [Completes, setTableCompleted, eq_comm] using completes
  · exact absurd completes not_completes_nil

theorem completes_change_store [Decidable asked]
    (done : asked → (t.change states tableName f).done = true)
    (completes : Completes name ((t.change states tableName f).effects ++
      if asked then [setTableCompleted tableName rows] else [])) :
    ∃ table, (t.change states tableName f).tracker.tables tableName = some table ∧
      table.isDone t.ackedLSN = true ∧
      (name = tableName ∨ name = (states table.tableState).tableName) := by
  rcases completes_append.mp completes with changed | stored
  · obtain ⟨table, found, isDone, named⟩ := completes_change changed
    exact ⟨table, found, isDone, .inr named⟩
  · obtain ⟨holds, named⟩ := completes_setTableCompleted stored
    obtain ⟨table, found, isDone⟩ := change_done (done holds)
    exact ⟨table, found, isDone, .inl named⟩

theorem add_memory (tableName : String) (rowsProcessed : Int) (index : Nat) :
    let memory := match t.tables tableName with
      | none => states
      | some table => update states table.tableState { states table.tableState with
          processedRows := table.processedRows + rowsProcessed }
    (memory index).tableName = (states index).tableName ∧
      (memory index).status = (states index).status := by
  cases found : t.tables tableName with
  | none => exact ⟨rfl, rfl⟩
  | some table =>
    by_cases same : index = table.tableState
    · subst same
      simp
    · simp [update_of_ne same]

/-- A report completes only tables that are done or have no tasks. -/
theorem completes_trackReport {stored : Bool} {report : ProgressReport}
    (completes : Completes name (t.trackReport states stored report).2.2) :
    report = .tableDispatched name 0 ∨
      ∃ key table, (t.trackReport states stored report).1.tables key = some table ∧
        table.isDone (t.trackReport states stored report).1.ackedLSN = true ∧
        (name = key ∨ name = (states table.tableState).tableName) := by
  -- The rows that are stored in between complete nothing.
  cases report with
  | tableStarted tableName totalRows =>
    simp only [trackReport, markStarted] at completes
    split at completes
    · exact absurd completes not_completes_nil
    · simp [Completes] at completes
  | tableDispatched tableName tasksCount =>
    simp only [trackReport, markDispatched, change_ackedLSN] at completes ⊢
    by_cases empty : tasksCount = 0
    · subst empty
      rcases completes_append.mp completes with changed | stored
      · obtain ⟨table, found, isDone, named⟩ := completes_change changed
        exact .inr ⟨tableName, table, found, isDone, .inr named⟩
      · obtain ⟨-, rfl⟩ := completes_setTableCompleted stored
        exact .inl rfl
    · simp only [empty, false_or] at completes
      exact .inr ⟨tableName, completes_change_store id completes⟩
  | maxLSN tableName lsn =>
    simp only [trackReport, addMaxLSN, change_ackedLSN] at completes ⊢
    exact .inr ⟨tableName, completes_change_store id completes⟩
  | taskDone tableName =>
    simp only [trackReport, completeTask, change_ackedLSN] at completes ⊢
    exact .inr ⟨tableName, completes_change_store id completes⟩
  | rangeDone tableName rowsProcessed =>
    simp only [trackReport, add, change_ackedLSN] at completes ⊢
    rw [append_assoc] at completes
    refine .inr ⟨tableName, ?_⟩
    rcases completes_append.mp completes with changed | later
    · obtain ⟨table, found, isDone, named⟩ := completes_change changed
      exact ⟨table, found, isDone, .inr (named.trans (add_memory tableName rowsProcessed _).1)⟩
    · rcases completes_append.mp later with rows | stored
      · simp [Completes] at rows
      · obtain ⟨holds, named⟩ := completes_setTableCompleted stored
        obtain ⟨table, found, isDone⟩ := change_done holds.2
        exact ⟨table, found, isDone, .inl named⟩
  | lsnAck lsn =>
    simp only [trackReport, ack] at completes ⊢
    split at completes
    · simp [Completes] at completes
    rename_i later
    rw [if_neg later]
    have acknowledges := acknowledges_foldl lsn t.tableNames (acknowledges_nil t lsn states)
    obtain ⟨key, table, found, isDone, named⟩ :=
      acknowledges.isDone name (completes_acked.mp completes)
    exact .inr ⟨key, table, found, isDone, .inr named⟩

/-- A report changes a status only to completed, or starts a table. -/
theorem trackReport_states (stored : Bool) (report : ProgressReport) (index : Nat) :
    ((t.trackReport states stored report).2.1 index).tableName = (states index).tableName ∧
      (((t.trackReport states stored report).2.1 index).status = (states index).status ∨
        ((t.trackReport states stored report).2.1 index).status = .completed ∧
          Completes (states index).tableName (t.trackReport states stored report).2.2 ∨
        ((t.trackReport states stored report).2.1 index).status = .inProgress ∧
          ∃ tableName totalRows table, report = .tableStarted tableName totalRows ∧
            t.tables tableName = some table ∧ table.tableState = index) := by
  -- What a change does to the memory, with any effects behind its own.
  have changed : ∀ (memory : TableMemory) (tableName : String)
      (f : SnapshotTableProgress → SnapshotTableProgress) (later : List SnapshotEffect),
      ((t.change memory tableName f).states index).tableName = (memory index).tableName ∧
        (((t.change memory tableName f).states index).status = (memory index).status ∨
          ((t.change memory tableName f).states index).status = .completed ∧
            Completes (memory index).tableName
              ((t.change memory tableName f).effects ++ later)) := by
    intro memory tableName f later
    obtain ⟨named, same | ⟨completed, completes⟩⟩ := @change_states t memory tableName f index
    · exact ⟨named, .inl same⟩
    · exact ⟨named, .inr ⟨completed, completes_append.mpr (.inl completes)⟩⟩
  cases report with
  | tableStarted tableName totalRows =>
    simp only [trackReport, markStarted]
    cases found : t.tables tableName with
    | none => exact ⟨rfl, .inl rfl⟩
    | some table =>
      dsimp only
      by_cases same : index = table.tableState
      · subst same
        rw [update_self]
        exact ⟨rfl, .inr (.inr ⟨rfl, tableName, totalRows, table, rfl, found, rfl⟩)⟩
      · rw [update_of_ne same]
        exact ⟨rfl, .inl rfl⟩
  | tableDispatched tableName tasksCount | maxLSN tableName lsn | taskDone tableName =>
    obtain ⟨named, kept⟩ := changed states tableName _ _
    exact ⟨named, kept.imp_right .inl⟩
  | rangeDone tableName rowsProcessed =>
    obtain ⟨sameName, sameStatus⟩ := @add_memory t states tableName rowsProcessed index
    simp only [trackReport, add, append_assoc]
    obtain ⟨named, kept⟩ := changed _ tableName _ _
    refine ⟨named.trans sameName, ?_⟩
    rw [sameName, sameStatus] at kept
    exact kept.imp_right .inl
  | lsnAck lsn =>
    simp only [trackReport, ack]
    split
    · exact ⟨rfl, .inl rfl⟩
    · have acknowledges := acknowledges_foldl lsn t.tableNames (acknowledges_nil t lsn states)
      refine ⟨acknowledges.named index, ?_⟩
      rcases acknowledges.changed index with kept | ⟨completed, member⟩
      · exact .inl kept
      · exact .inr (.inl ⟨completed, completes_acked.mpr member⟩)

/-- The progress is what the reports say, for tables of given names. -/
structure Tracks (count : Nat) (names : Nat → String) (processed : List ProgressReport)
    (t : SnapshotProgressTracker) : Prop where
  place : ∀ name table, t.tables name = some table →
    table.tableState < count ∧ names table.tableState = name
  done : ∀ name table, t.tables name = some table →
    table.doneTasks = processed.count (.taskDone name)
  dispatched : ∀ name table, t.tables name = some table → table.dispatched = true →
    .tableDispatched name table.tasksCount ∈ processed
  maxLSN : ∀ name table, t.tables name = some table → ∀ lsn, .maxLSN name lsn ∈ processed →
    lsn ≤ table.maxLSN
  acked : t.ackedLSN = 0 ∨ .lsnAck t.ackedLSN ∈ processed

/-- A new tracker has processed nothing. -/
theorem Tracks.start (count : Nat) (states : TableMemory) (reportEvery : Int) :
    Tracks count (fun index => (states index).tableName) []
      (newSnapshotProgressTracker count states reportEvery) := by
  have found : ∀ name table,
      (newSnapshotProgressTracker count states reportEvery).tables name = some table →
      (table.tableState < count ∧ (states table.tableState).tableName = name) ∧
        table.doneTasks = 0 ∧ table.dispatched = false := by
    intro name table found
    obtain ⟨index, searched, rfl⟩ := Option.map_eq_some_iff.mp found
    have known : index < count := by
      simpa using mem_of_find?_eq_some searched
    have named := find?_some searched
    exact ⟨⟨known, by simpa using named⟩, rfl, rfl⟩
  refine ⟨fun name table known => (found name table known).1,
    fun name table known => (found name table known).2.1, ?_, ?_, .inl rfl⟩
  · intro name table known dispatched
    rw [(found name table known).2.2] at dispatched
    cases dispatched
  · intro name table known lsn reported
    cases reported

/-- A report is tracked behind those before it. -/
theorem Tracks.step {count : Nat} {names : Nat → String} {processed : List ProgressReport}
    (tracks : Tracks count names processed t) (stored : Bool) (report : ProgressReport) :
    Tracks count names (processed ++ [report]) (t.trackReport states stored report).1 := by
  have origin : ∀ name table, (t.trackReport states stored report).1.tables name = some table →
      ∃ before, t.tables name = some before ∧
        table = progressAfter t.reportEvery name before report := by
    intro name table found
    rw [trackReport_tables] at found
    obtain ⟨before, known, rfl⟩ := Option.map_eq_some_iff.mp found
    exact ⟨before, known, rfl⟩
  refine ⟨?_, ?_, ?_, ?_, ?_⟩
  · intro name table found
    obtain ⟨before, known, rfl⟩ := origin name table found
    rw [progressAfter_tableState]
    exact tracks.place name before known
  · intro name table found
    obtain ⟨before, known, rfl⟩ := origin name table found
    rw [progressAfter_doneTasks, tracks.done name before known, count_append, count_singleton]
    simp
  · intro name table found dispatched
    obtain ⟨before, known, rfl⟩ := origin name table found
    rcases progressAfter_dispatched t.reportEvery name before report with ⟨same, count⟩ | now
    · rw [count]
      exact mem_append_left _ (tracks.dispatched name before known (same ▸ dispatched))
    · exact mem_append_right _ (mem_singleton.mpr now.symm)
  · intro name table found lsn reported
    obtain ⟨before, known, rfl⟩ := origin name table found
    obtain ⟨raised, taken⟩ := progressAfter_maxLSN t.reportEvery name before report
    rcases mem_append.mp reported with earlier | now
    · exact (tracks.maxLSN name before known lsn earlier).trans raised
    · exact taken lsn (mem_singleton.mp now).symm
  · rcases trackReport_ackedLSN stored report with same | now
    · rw [same]
      exact tracks.acked.imp_right (mem_append_left _)
    · exact .inr (mem_append_right _ (mem_singleton.mpr now.symm))

end SnapshotProgressTracker

end PgWalk
