import PgWalk.Snapshot.Progress

/-! The progress of a snapshot as one table sees it: its counters, its memory and its store. -/

namespace PgWalk

open Function (update update_of_ne update_self)

/-- The stored progress of a table. Times and the estimate are left out. -/
structure StoredProgress where
  processedRows : Int
  status : SnapshotStatus
  errorMessage : Option String
deriving DecidableEq

/-- Which columns an update of the progress sets, if it sets any. -/
def StoredProgress.updateProgress (stored : StoredProgress) (processedRows : Int)
    (status : SnapshotStatus) (errorMessage : Option String) : StoredProgress :=
  if status = .inProgress ∧ processedRows > 0 then
    { stored with processedRows := processedRows, status := status }
  else if status = .completed ∧ processedRows > 0 then ⟨processedRows, status, errorMessage⟩
  -- Without rows those that are stored stay.
  else if status = .completed then { stored with status := status, errorMessage := errorMessage }
  else if status = .failed then { stored with status := status, errorMessage := errorMessage }
  else stored

/-- The stored progress of all tables by their names. -/
abbrev StoredTables := String → StoredProgress

variable (stored : StoredTables)

def SnapshotEffect.store : SnapshotEffect → StoredTables
  | .setInProgress tableName _ =>
    update stored tableName { stored tableName with status := .inProgress }
  | .updateProgress tableName processedRows current errorMessage =>
    update stored tableName
      ((stored tableName).updateProgress processedRows current errorMessage)
  | .status _ _ => stored

def storeAll (effects : List SnapshotEffect) : StoredTables :=
  effects.foldl SnapshotEffect.store stored

@[simp] theorem StoredProgress.updateProgress_completed (stored : StoredProgress) (rows : Int) :
    (stored.updateProgress rows .completed none).status = .completed := by
  simp only [updateProgress, true_and, if_true]
  split
  · rfl
  · split <;> rfl

/-- The tracker with the memory and the store. -/
structure ProgressState where
  tracker : SnapshotProgressTracker
  states : TableMemory
  stored : StoredTables

namespace ProgressState

/-- Take a report, whose updates can all be stored. -/
def take (s : ProgressState) (report : ProgressReport) : ProgressState :=
  let (tracker, states, effects) := s.tracker.trackReport s.states true report
  ⟨tracker, states, storeAll s.stored effects⟩

/-- Tables have their own places, and acknowledgements look at all. -/
structure Placed (s : ProgressState) : Prop where
  named : ∀ name table, s.tracker.tables name = some table →
    (s.states table.tableState).tableName = name
  listed : ∀ name table, s.tracker.tables name = some table → name ∈ s.tracker.tableNames

end ProgressState

/-- What the tracker, the memory and the store hold of one table. -/
structure TableView where
  table : SnapshotTableProgress
  state : TableState
  stored : StoredProgress
  ackedLSN : Nat

namespace TableView

/-- The progress has changed: a done table is completed, and stored if asked. -/
def changed (v : TableView) (table : SnapshotTableProgress) (asked : Bool) : TableView :=
  let done := table.isDone v.ackedLSN
  { v with
    table := table
    state := if done then { v.state with status := .completed } else v.state
    stored := if asked || done then v.stored.updateProgress table.processedRows .completed none
      else v.stored }

def after (reportEvery : Int) (name : String) (v : TableView) (report : ProgressReport) :
    TableView :=
  let table := SnapshotProgressTracker.progressAfter reportEvery name v.table report
  match report with
  | .tableStarted tableName totalRows =>
    if name = tableName then
      { v with
        table := table
        state := { v.state with totalRows := some totalRows, status := .inProgress } }
    else v
  | .tableDispatched tableName tasksCount =>
    if name = tableName then v.changed table (tasksCount = 0) else v
  | .maxLSN tableName _ => if name = tableName then v.changed table false else v
  | .taskDone tableName => if name = tableName then v.changed table false else v
  | .rangeDone tableName _ =>
    if name = tableName then
      { v with
        state := { v.state with processedRows := table.processedRows }
        stored := v.stored.updateProgress table.processedRows .inProgress none
        }.changed table false
    else v
  | .lsnAck lsn =>
    if lsn ≤ v.ackedLSN then v
    else if v.table.isDone lsn ∧ v.state.status ≠ .completed then
      { v with
        state := { v.state with status := .completed }
        stored := v.stored.updateProgress 0 .completed none
        ackedLSN := lsn }
    else { v with ackedLSN := lsn }

end TableView

open TableView

/-- A view is what the tracker, the memory and the store hold of a table. -/
structure ProgressState.Sees (s : ProgressState) (name : String) (v : TableView) : Prop where
  table : s.tracker.tables name = some v.table
  state : v.state = s.states v.table.tableState
  stored : v.stored = s.stored name
  ackedLSN : v.ackedLSN = s.tracker.ackedLSN

theorem storeAll_append (first rest : List SnapshotEffect) :
    storeAll stored (first ++ rest) = storeAll (storeAll stored first) rest :=
  List.foldl_append

namespace SnapshotProgressTracker

variable {t : SnapshotProgressTracker} {states : TableMemory} {tableName : String}
  {f : SnapshotTableProgress → SnapshotTableProgress}

theorem change_found {table : SnapshotTableProgress} (found : t.tables tableName = some table) :
    t.change states tableName f =
      { tracker := { t with tables := update t.tables tableName (some (f table)) }
        states := if (f table).isDone t.ackedLSN
          then states.setStatus (f table).tableState .completed else states
        effects := if (f table).isDone t.ackedLSN
          then [.status (states (f table).tableState).tableName .completed] else []
        processedRows := (f table).processedRows
        totalRows := (f table).totalRows
        done := (f table).isDone t.ackedLSN } := by
  rw [change, found]

theorem storeAll_change (stored : StoredTables) :
    storeAll stored (t.change states tableName f).effects = stored := by
  simp only [change]
  cases t.tables tableName with
  | none => rfl
  | some table =>
    simp only
    split <;> rfl

theorem change_states_other {index : Nat}
    (elsewhere : ∀ table, t.tables tableName = some table → (f table).tableState ≠ index) :
    (t.change states tableName f).states index = states index := by
  cases found : t.tables tableName with
  | none => rw [change, found]
  | some table =>
    rw [change_found found]
    split
    · exact update_of_ne (elsewhere table found).symm _ _
    · rfl

end SnapshotProgressTracker

theorem storeAll_status (names : List String) (current : SnapshotStatus) :
    storeAll stored (names.map (.status · current)) = stored := by
  induction names with
  | nil => rfl
  | cons name rest ih => exact ih

theorem storeAll_completed (names : List String) (name : String) :
    storeAll stored (names.map fun table => setTableCompleted table 0) name =
      if name ∈ names then (stored name).updateProgress 0 .completed none else stored name := by
  -- By induction on the names, of which the first may be the one in question.
  induction names generalizing stored with
  | nil => rfl
  | cons first rest ih =>
    have unfolded : storeAll stored ((first :: rest).map fun table => setTableCompleted table 0) =
        storeAll (update stored first ((stored first).updateProgress 0 .completed none))
          (rest.map fun table => setTableCompleted table 0) := rfl
    rw [unfolded, ih]
    by_cases here : name = first
    · subst here
      split <;> simp [StoredProgress.updateProgress]
    · simp [here]

namespace SnapshotProgressTracker

variable {t : SnapshotProgressTracker} {lsn : Nat}

/-- What an acknowledgement does to one table, among those it goes through. -/
theorem foldl_ackTable {name : String} {table : SnapshotTableProgress}
    (found : t.tables name = some table) (names : List String) (states : TableMemory)
    (done : List String)
    (named : ∀ key entry, t.tables key = some entry → (states entry.tableState).tableName = key) :
    let completes := name ∈ names ∧ table.isDone lsn = true ∧
      (states table.tableState).status ≠ .completed
    let result := names.foldl (t.ackTable lsn) (states, done)
    ((result.1 table.tableState = { states table.tableState with status := .completed } ∧
        completes) ∨ (result.1 table.tableState = states table.tableState ∧ ¬ completes)) ∧
      (name ∈ result.2 ↔ name ∈ done ∨ completes) := by
  -- A table completed here is passed over from now on.
  induction names generalizing states done with
  | nil => simp
  | cons first rest ih =>
    simp only [List.foldl_cons]
    cases entry : t.tables first with
    | none =>
      have differs : name ≠ first := by
        rintro rfl
        rw [found] at entry
        cases entry
      simpa [ackTable, entry, differs] using ih states done named
    | some other =>
      simp only [ackTable, entry]
      split
      · rename_i passes
        have kept : ∀ key entry, t.tables key = some entry →
            ((states.setStatus other.tableState .completed) entry.tableState).tableName = key := by
          intro key entry tracked
          by_cases same : entry.tableState = other.tableState
          · rw [same, TableMemory.setStatus, update_self, ← same]
            exact named key entry tracked
          · rw [TableMemory.setStatus, update_of_ne same]
            exact named key entry tracked
        have later := ih (states.setStatus other.tableState .completed)
          (done ++ [(states other.tableState).tableName]) kept
        by_cases here : name = first
        · subst here
          obtain rfl : other = table := Option.some.inj (entry.symm.trans found)
          simpa [TableMemory.setStatus, named name other found, passes.1, passes.2] using later
        · have apart : table.tableState ≠ other.tableState := by
            intro same
            refine here ?_
            rw [← named name table found, ← named first other entry, same]
          have unnamed : name ≠ (states other.tableState).tableName := by
            rw [named first other entry]
            exact here
          simpa [TableMemory.setStatus, update_of_ne apart, here, unnamed] using later
      · rename_i passed
        by_cases here : name = first
        · subst here
          obtain rfl : other = table := Option.some.inj (entry.symm.trans found)
          have never : ¬ (other.isDone lsn = true ∧
              (states other.tableState).status ≠ .completed) := passed
          have later := ih states done named
          simpa [never] using later
        · simpa [here] using ih states done named

end SnapshotProgressTracker

namespace ProgressState.Sees

open SnapshotProgressTracker Option SnapshotProgressTracker

variable {s : ProgressState} {name tableName : String} {v : TableView}

theorem elsewhere (placed : s.Placed) (sees : s.Sees name v) (differs : name ≠ tableName)
    {table : SnapshotTableProgress} (found : s.tracker.tables tableName = some table) :
    table.tableState ≠ v.table.tableState := by
  intro same
  refine differs ?_
  rw [← placed.named name v.table sees.table, ← placed.named tableName table found, same]

theorem other (placed : s.Placed) (sees : s.Sees name v) (differs : name ≠ tableName)
    (f : SnapshotTableProgress → SnapshotTableProgress)
    (place : ∀ table, (f table).tableState = table.tableState) {memory : TableMemory}
    (same : memory v.table.tableState = s.states v.table.tableState) {stored : StoredTables}
    (kept : stored name = s.stored name) :
    Sees ⟨(s.tracker.change memory tableName f).tracker,
      (s.tracker.change memory tableName f).states, stored⟩ name v := by
  refine ⟨?_, ?_, sees.stored.trans kept.symm, sees.ackedLSN.trans (change_ackedLSN ..).symm⟩
  · rw [change_tables, sees.table, map_some, if_neg differs]
  · rw [sees.state, ← same]
    refine (change_states_other fun table found => ?_).symm
    rw [place]
    exact sees.elsewhere placed differs found

/-- A change of the table, stored as completed if done or asked. -/
theorem change (sees : s.Sees name v) (f : SnapshotTableProgress → SnapshotTableProgress)
    (place : (f v.table).tableState = v.table.tableState) (asked : Bool) {wanted : Prop}
    [Decidable wanted]
    (wants : wanted ↔ asked = true ∨ (s.tracker.change s.states name f).done = true) :
    let outcome := s.tracker.change s.states name f
    Sees ⟨outcome.tracker, outcome.states, storeAll s.stored (outcome.effects ++
      if wanted then [setTableCompleted name outcome.processedRows] else [])⟩ name
      (v.changed (f v.table) asked) := by
  intro outcome
  have result : outcome = _ := change_found sees.table
  have acked := sees.ackedLSN
  have done : outcome.done = (f v.table).isDone v.ackedLSN := by rw [result, acked]
  have stores : (asked || (f v.table).isDone v.ackedLSN) = true ↔ wanted := by
    rw [Bool.or_eq_true, wants, ← done]
  refine ⟨?_, ?_, ?_, ?_⟩
  · rw [result]
    exact update_self ..
  · rw [result]
    simp only [changed, acked, place]
    split
    · rw [TableMemory.setStatus, update_self, sees.state]
    · exact sees.state
  · rw [storeAll_append, storeAll_change]
    simp only [changed]
    by_cases holds : wanted
    · rw [if_pos holds, if_pos (stores.mpr holds), sees.stored, result]
      exact (update_self name _ s.stored).symm
    · rw [if_neg holds, if_neg fun done => holds (stores.mp done)]
      exact sees.stored
  · rw [result]
    exact acked

/-- A start is seen by its own table. -/
theorem started (placed : s.Placed) (sees : s.Sees name v) (tableName : String)
    (totalRows : Int) :
    (s.take (.tableStarted tableName totalRows)).Sees name
      (v.after s.tracker.reportEvery name (.tableStarted tableName totalRows)) := by
  -- What is set in memory is at the place of the other table.
  have stores : (s.take (.tableStarted tableName totalRows)).stored = s.stored := by
    simp only [take, trackReport, markStarted]
    cases s.tracker.tables tableName <;> rfl
  have acked : (s.take (.tableStarted tableName totalRows)).tracker.ackedLSN =
      s.tracker.ackedLSN := by
    simp only [take, trackReport, markStarted]
    cases s.tracker.tables tableName <;> rfl
  have tracked : (s.take (.tableStarted tableName totalRows)).tracker.tables name = some
      (progressAfter s.tracker.reportEvery name v.table (.tableStarted tableName totalRows)) := by
    rw [take, trackReport_tables, sees.table, map_some]
  by_cases same : name = tableName
  · subst same
    simp only [after, if_true]
    refine ⟨tracked, ?_, by rw [stores]; exact sees.stored, sees.ackedLSN.trans acked.symm⟩
    simp [take, trackReport, markStarted, sees.table, sees.state, progressAfter]
  · simp only [after, if_neg same]
    rw [progressAfter, if_neg same] at tracked
    refine ⟨tracked, ?_, by rw [stores]; exact sees.stored, sees.ackedLSN.trans acked.symm⟩
    rw [sees.state]
    simp only [take, trackReport, markStarted]
    cases found : s.tracker.tables tableName with
    | none => rfl
    | some table => exact (update_of_ne (sees.elsewhere placed same found).symm ..).symm

/-- An acknowledgement is seen by every table. -/
theorem acked (placed : s.Placed) (sees : s.Sees name v) (lsn : Nat) :
    (s.take (.lsnAck lsn)).Sees name (v.after s.tracker.reportEvery name (.lsnAck lsn)) := by
  -- The table is among those looked at, so its own state decides.
  simp only [take, trackReport, SnapshotProgressTracker.ack, after, sees.ackedLSN]
  split
  · exact ⟨sees.table, sees.state, sees.stored, sees.ackedLSN⟩
  · obtain ⟨memory, member⟩ := @foldl_ackTable s.tracker lsn name v.table sees.table
      s.tracker.tableNames s.states [] placed.named
    have listed := placed.listed name v.table sees.table
    simp only [listed, true_and, List.not_mem_nil, false_or] at memory member
    rw [sees.state, storeAll_append, storeAll_status]
    generalize s.tracker.tableNames.foldl (s.tracker.ackTable lsn) (s.states, []) = result
      at memory member ⊢
    have stored := storeAll_completed s.stored result.2 name
    split
    · rename_i completes
      rcases memory with ⟨set, -⟩ | ⟨-, passed⟩
      · rw [if_pos (member.mpr completes), ← sees.stored] at stored
        exact ⟨sees.table, set.symm, stored.symm, rfl⟩
      · exact absurd completes passed
    · rename_i passed
      rcases memory with ⟨-, completes⟩ | ⟨kept, -⟩
      · exact absurd completes passed
      · rw [if_neg fun listed => passed (member.mp listed), ← sees.stored] at stored
        exact ⟨sees.table, kept.symm, stored.symm, rfl⟩

/-- Rows of the table are stored, and then it may be completed. -/
theorem added (sees : s.Sees name v) (rows : Int) :
    (s.take (.rangeDone name rows)).Sees name
      (v.after s.tracker.reportEvery name (.rangeDone name rows)) := by
  -- The table as it is seen between the two updates.
  let f := fun table : SnapshotTableProgress => { table with
    processedRows := table.processedRows + rows
    processedSinceLastReport := sinceLastReport s.tracker.reportEvery table rows }
  let mid : ProgressState := ⟨s.tracker,
    update s.states v.table.tableState { s.states v.table.tableState with
      processedRows := v.table.processedRows + rows },
    update s.stored name
      ((s.stored name).updateProgress (v.table.processedRows + rows) .inProgress none)⟩
  have seen : mid.Sees name { v with
      state := { v.state with processedRows := v.table.processedRows + rows }
      stored := v.stored.updateProgress (v.table.processedRows + rows) .inProgress none } := by
    refine ⟨sees.table, ?_, ?_, sees.ackedLSN⟩
    · simp [mid, sees.state]
    · simp [mid, sees.stored]
  have outcome : s.tracker.add s.states name rows = s.tracker.change mid.states name f := by
    simp only [add, sees.table]
    rfl
  have total : (s.tracker.change mid.states name f).processedRows =
      v.table.processedRows + rows := by
    rw [change_found sees.table]
  have taken : s.take (.rangeDone name rows) =
      ⟨(s.tracker.change mid.states name f).tracker, (s.tracker.change mid.states name f).states,
        storeAll mid.stored ((s.tracker.change mid.states name f).effects ++
          if (s.tracker.change mid.states name f).done = true
          then [setTableCompleted name (s.tracker.change mid.states name f).processedRows]
          else [])⟩ := by
    simp only [ProgressState.take, trackReport, outcome, true_and, storeAll_append, storeAll_change]
    rw [total]
    rfl
  have view : v.after s.tracker.reportEvery name (.rangeDone name rows) = changed { v with
      state := { v.state with processedRows := v.table.processedRows + rows }
      stored := v.stored.updateProgress (v.table.processedRows + rows) .inProgress none }
      (f v.table) false := by
    simp [after, progressAfter, f]
  rw [taken, view]
  exact seen.change f rfl false (by simp [mid])

/-- Every report is seen as the table's view has it. -/
theorem take (placed : s.Placed) (sees : s.Sees name v) (report : ProgressReport) :
    (s.take report).Sees name (v.after s.tracker.reportEvery name report) := by
  -- What is stored for another table is not seen.
  have apart : ∀ {tableName : String} (differs : name ≠ tableName) (rows : Int)
      (asked : Prop) [Decidable asked] (stored : StoredTables),
      storeAll stored (if asked then [setTableCompleted tableName rows] else []) name =
        stored name := by
    intro tableName differs rows asked _ stored
    split
    · exact update_of_ne differs ..
    · rfl
  cases report with
  | tableStarted tableName totalRows => exact sees.started placed tableName totalRows
  | lsnAck lsn => exact sees.acked placed lsn
  | tableDispatched tableName tasksCount =>
    let f := fun table : SnapshotTableProgress =>
      { table with dispatched := true, tasksCount := tasksCount }
    by_cases same : name = tableName
    · subst same
      have view : v.after s.tracker.reportEvery name (.tableDispatched name tasksCount) =
          v.changed (f v.table) (tasksCount = 0) := by
        simp [after, progressAfter, f]
      rw [view]
      exact sees.change f rfl (tasksCount = 0) (show tasksCount = 0 ∨ _ ↔ _ by
        rw [decide_eq_true_eq]
        rfl)
    · simp only [after, if_neg same]
      refine sees.other placed same f (fun _ => rfl) rfl ?_
      rw [storeAll_append, markDispatched, storeAll_change]
      exact apart same ..
  | maxLSN tableName lsn =>
    let f := fun table : SnapshotTableProgress =>
      if table.maxLSN < lsn then { table with maxLSN := lsn } else table
    have place : ∀ table, (f table).tableState = table.tableState := fun table => by
      simp only [f]
      split <;> rfl
    by_cases same : name = tableName
    · subst same
      have view : v.after s.tracker.reportEvery name (.maxLSN name lsn) =
          v.changed (f v.table) false := by
        simp [after, progressAfter, f]
      rw [view]
      exact sees.change f (place _) false (by simp [addMaxLSN, f])
    · simp only [after, if_neg same]
      refine sees.other placed same f place rfl ?_
      rw [storeAll_append, addMaxLSN, storeAll_change]
      exact apart same ..
  | taskDone tableName =>
    let f := fun table : SnapshotTableProgress => { table with doneTasks := table.doneTasks + 1 }
    by_cases same : name = tableName
    · subst same
      have view : v.after s.tracker.reportEvery name (.taskDone name) =
          v.changed (f v.table) false := by
        simp [after, progressAfter, f]
      rw [view]
      exact sees.change f rfl false (by simp [completeTask, f])
    · simp only [after, if_neg same]
      refine sees.other placed same f (fun _ => rfl) rfl ?_
      rw [storeAll_append, completeTask, storeAll_change]
      exact apart same ..
  | rangeDone tableName rows =>
    by_cases same : name = tableName
    · subst same
      exact sees.added rows
    · simp only [after, if_neg same]
      refine sees.other placed same (fun table => { table with
        processedRows := table.processedRows + rows
        processedSinceLastReport := sinceLastReport s.tracker.reportEvery table rows })
        (fun _ => rfl) ?_ ?_
      · cases found : s.tracker.tables tableName with
        | none => rfl
        | some table => exact update_of_ne (sees.elsewhere placed same found).symm ..
      · rw [storeAll_append, storeAll_append, add, storeAll_change, apart same]
        exact update_of_ne same ..

end ProgressState.Sees

namespace ProgressState

open SnapshotProgressTracker

/-- A report adds no tables. -/
theorem take_tableNames (s : ProgressState) (report : ProgressReport) :
    (s.take report).tracker.tableNames = s.tracker.tableNames := by
  have changed : ∀ (memory : TableMemory) (tableName : String)
      (f : SnapshotTableProgress → SnapshotTableProgress),
      (s.tracker.change memory tableName f).tracker.tableNames = s.tracker.tableNames := by
    intro memory tableName f
    rw [change]
    split <;> rfl
  cases report with
  | tableStarted tableName totalRows =>
    simp only [take, trackReport, markStarted]
    cases s.tracker.tables tableName <;> rfl
  | lsnAck lsn =>
    simp only [take, trackReport, SnapshotProgressTracker.ack]
    split <;> rfl
  | tableDispatched tableName tasksCount => exact changed ..
  | maxLSN tableName lsn => exact changed ..
  | taskDone tableName => exact changed ..
  | rangeDone tableName rows => exact changed ..

theorem Placed.take {s : ProgressState} (placed : s.Placed) (report : ProgressReport) :
    (s.take report).Placed := by
  have origin : ∀ name table, (s.take report).tracker.tables name = some table →
      ∃ before, s.tracker.tables name = some before ∧ table.tableState = before.tableState := by
    intro name table found
    rw [ProgressState.take, trackReport_tables] at found
    obtain ⟨before, known, rfl⟩ := Option.map_eq_some_iff.mp found
    exact ⟨before, known, progressAfter_tableState ..⟩
  refine ⟨fun name table found => ?_, fun name table found => ?_⟩
  · obtain ⟨before, known, place⟩ := origin name table found
    rw [place]
    exact (trackReport_states true report _).1.trans (placed.named name before known)
  · obtain ⟨before, known, -⟩ := origin name table found
    rw [take_tableNames]
    exact placed.listed name before known

end ProgressState

end PgWalk
