import PgWalk.Snapshot.Config
import PgWalk.Snapshot.Prepare

/-! A snapshot from its configuration to the position that streaming starts from. -/

namespace PgWalk

/-- How far the snapshot of a table has come, as it is stored. -/
inductive SnapshotStatus
  | pending
  | inProgress
  | completed
  | failed
  | other (text : String)
deriving DecidableEq

/-- The stored state of a table, without times and the clause. -/
structure TableState where
  appName : String
  tableName : String
  snapshotLSN : String
  snapshotType : String
  snapshotQuery : Option String
  totalRows : Option Int
  processedRows : Int
  status : SnapshotStatus
  errorMessage : Option String
  whereClause : String
deriving DecidableEq

/-- A table that nothing is stored of yet. -/
def TableState.new (tableName appName : String) : TableState where
  appName := appName
  tableName := tableName
  snapshotLSN := ""
  snapshotType := ""
  snapshotQuery := none
  totalRows := none
  processedRows := 0
  status := .other ""
  errorMessage := none
  whereClause := ""

/-- The query for some columns of a table, or for all of them. -/
def buildSelectQuery (tableName : String) (columns : List String) (whereClause : String) : String :=
  "SELECT " ++ (if columns = [] then "*" else ", ".intercalate columns) ++ " FROM " ++ tableName ++
    (if whereClause = "" then "" else " WHERE " ++ whereClause)

/-- The names of the replicated columns in column order. -/
def snapshotColumnNames (table : Table) : List String :=
  (table.columns.insertionSort Column.before).map Column.name

/-- The columns to ask for, none of them when all are wanted. -/
def snapshotQueryColumns (table : Table) : List String :=
  if table.hasAllPhysicalColumns then [] else snapshotColumnNames table

structure SnapshotManager where
  config : Option SnapshotConfig
  appName : String
  -- The table that the listener knows under a name.
  getTable : TableName → Option Table

namespace SnapshotManager

def snapshotQueryColumns (m : SnapshotManager) (tableName : String) : List String :=
  match m.getTable (parseTableName tableName) with
  | none => []
  | some table => PgWalk.snapshotQueryColumns table

/-- The state a table enters with, and whether it has to be stored. -/
def prepareTableState (m : SnapshotManager) (tableName : String) (tableCfg : SnapshotTableConfig)
    (state : Option TableState) (snapshotLSN : String) : TableState × Bool :=
  if state.any fun state => state.status = .completed then
    -- A table that is done keeps the position of the snapshot it was done in.
    (state.getD (.new tableName m.appName), false)
  else
    let state := state.getD (.new tableName m.appName)
    let whereClause := match tableCfg.type with
      | .query => " ( " ++ trimSpace tableCfg.query ++ " ) "
      | _ => ""
    ({ state with
      whereClause := whereClause
      snapshotLSN := snapshotLSN
      snapshotType := tableCfg.type.text
      snapshotQuery := some
        (buildSelectQuery tableName (m.snapshotQueryColumns tableName) whereClause)
      totalRows := none
      processedRows := 0
      status := .pending
      errorMessage := none }, true)

end SnapshotManager

/-- What the outside answers while a snapshot is executed. -/
structure ExecuteEnv where
  -- The stored position, empty when there is none or it cannot be read.
  snapshotLSN : String
  createSnapshotStateTable : Except String Unit
  -- The position and the name of the snapshot.
  prepareSnapshot : Except String (String × String)
  -- The stored states by table name.
  loadTablesState : Except String (String → Option TableState)
  upsertTableState : TableState → Except String Unit
  runSnapshot : List TableState → String → Except String Unit

structure ExecuteResult where
  lsn : Nat
  err : Option String
  -- The states that the snapshot was run with, when it was.
  tableStates : Option (List TableState)

namespace SnapshotManager

/-- The states of the configured tables, stored where they have changed. -/
def initTablesState (m : SnapshotManager) (env : ExecuteEnv) (tables : List SnapshotTableConfig)
    (snapshotLSN : String) : Except String (List TableState) := do
  let existingStates ← env.loadTablesState
  tables.mapM fun tableCfg => do
    let (state, shouldUpsert) :=
      m.prepareTableState tableCfg.name tableCfg (existingStates tableCfg.name) snapshotLSN
    if shouldUpsert then env.upsertTableState state
    return state

/-- The stored position, when it is to be used without another snapshot. -/
def storedSnapshot (text : LSNText) (mode : SnapshotMode) (lsnStr : String) : Option Nat :=
  if lsnStr = "" then none
  else match text.parseLSN lsnStr with
    | .ok lsn => if lsn > 0 ∧ mode = .oneTime then some lsn else none
    | .error _ => none

/-- The text of an error as a caller sees it. -/
def faultText : Fault → String
  | .error text | .panic text | .fatal text => text

/-- Take the snapshot that the configuration asks for. -/
def execute (text : LSNText) (lib : TextLibrary) (m : SnapshotManager) (env : ExecuteEnv) :
    ExecuteResult :=
  match m.config with
  | none => ⟨0, none, none⟩
  | some config =>
    if config.mode = .never then ⟨0, none, none⟩
    else match config.validate lib with
      | .error err => ⟨0, some ("invalid snapshot config: " ++ err.text lib), none⟩
      | .ok valid =>
        match storedSnapshot text valid.mode env.snapshotLSN with
        | some lsn => ⟨lsn, none, none⟩
        | none =>
          match env.createSnapshotStateTable with
          | .error err => ⟨0, some ("failed to initialize state manager: " ++ err), none⟩
          | .ok () =>
            match env.prepareSnapshot with
            | .error err => ⟨0, some err, none⟩
            | .ok (lsn, snapshotID) =>
              match text.parseLSN lsn with
              | .error fault =>
                ⟨0, some ("failed to parse snapshot LSN: " ++ faultText fault), none⟩
              | .ok parsedLSN =>
                match m.initTablesState env valid.valid.tables lsn with
                | .error err => ⟨0, some err, none⟩
                | .ok tableStates =>
                  match env.runSnapshot tableStates snapshotID with
                  | .error err => ⟨parsedLSN, some err, some tableStates⟩
                  | .ok () => ⟨parsedLSN, none, some tableStates⟩

variable {m : SnapshotManager} {env : ExecuteEnv} {states : List TableState}

/-- An execution that ran returns the position read for it. -/
theorem execute_ran {text : LSNText} {lib : TextLibrary} {config : SnapshotConfig}
    {valid : ValidSnapshotConfig} {lsn snapshotID : String} (configured : m.config = some config)
    (passed : config.validate lib = .ok valid)
    (prepared : env.prepareSnapshot = .ok (lsn, snapshotID))
    (ran : (m.execute text lib env).tableStates = some states) :
    text.parseLSN lsn = .ok (m.execute text lib env).lsn ∧
      m.initTablesState env valid.valid.tables lsn = .ok states := by
  -- Whether or not it fails, the position is the one read.
  by_cases never : config.mode = .never
  · simp [execute, configured, never] at ran
  cases stored : storedSnapshot text valid.mode env.snapshotLSN with
  | some lsn => simp [execute, configured, never, passed, stored] at ran
  | none =>
    cases created : env.createSnapshotStateTable with
    | error err => simp [execute, configured, never, passed, stored, created] at ran
    | ok done =>
      cases parsed : text.parseLSN lsn with
      | error fault =>
        simp [execute, configured, never, passed, stored, created, prepared, parsed] at ran
      | ok current =>
        cases initialised : m.initTablesState env valid.valid.tables lsn with
        | error err =>
          simp [execute, configured, never, passed, stored, created, prepared, parsed,
            initialised] at ran
        | ok tableStates =>
          cases outcome : env.runSnapshot tableStates snapshotID <;>
            simp_all [execute]

/-- The states that a snapshot is run with are those of the configured tables. -/
theorem initTablesState_eq {tables : List SnapshotTableConfig} {snapshotLSN : String}
    {existing : String → Option TableState} (loaded : env.loadTablesState = .ok existing)
    (initialised : m.initTablesState env tables snapshotLSN = .ok states) :
    states = tables.map fun tableCfg =>
      (m.prepareTableState tableCfg.name tableCfg (existing tableCfg.name) snapshotLSN).1 := by
  -- Storing a state may fail but never changes it.
  simp only [initTablesState, loaded] at initialised
  replace initialised := (bind_eq_ok.mp initialised)
  obtain ⟨_, same, initialised⟩ := initialised
  cases same
  induction tables generalizing states with
  | nil =>
    cases initialised
    rfl
  | cons tableCfg rest ih =>
    rw [List.mapM_cons] at initialised
    obtain ⟨state, stored, initialised⟩ := bind_eq_ok.mp initialised
    obtain ⟨others, later, initialised⟩ := bind_eq_ok.mp initialised
    cases initialised
    have same : state =
        (m.prepareTableState tableCfg.name tableCfg (existing tableCfg.name) snapshotLSN).1 := by
      split at stored
      · obtain ⟨done, -, returned⟩ := bind_eq_ok.mp stored
        cases returned
        rfl
      · cases stored
        rfl
    rw [List.map_cons, ← ih later, same]

theorem prepareTableState_snapshotLSN (m : SnapshotManager) (tableName : String)
    (tableCfg : SnapshotTableConfig) (state : Option TableState) (snapshotLSN : String) :
    (∃ done, state = some done ∧ done.status = .completed ∧
      (m.prepareTableState tableName tableCfg state snapshotLSN).1 = done) ∨
    (∀ done, state = some done → done.status ≠ .completed) ∧
      (m.prepareTableState tableName tableCfg state snapshotLSN).1.snapshotLSN = snapshotLSN := by
  cases state with
  | none =>
    refine .inr ⟨by simp, ?_⟩
    simp [prepareTableState]
  | some stored =>
    by_cases completed : stored.status = .completed
    · refine .inl ⟨stored, rfl, completed, ?_⟩
      simp [prepareTableState, completed]
    · refine .inr ⟨fun done same => Option.some.inj same ▸ completed, ?_⟩
      simp [prepareTableState, completed]

end SnapshotManager

/--
The position returned lies behind the own position of no table that the snapshot was run with
exactly when no configured table was completed in an earlier snapshot at a smaller position.
-/
theorem execute_covers_iff {text : LSNText} {lib : TextLibrary} {m : SnapshotManager}
    {env : ExecuteEnv} {config : SnapshotConfig} {valid : ValidSnapshotConfig}
    {existing : String → Option TableState} {lsn snapshotID : String} {states : List TableState}
    (configured : m.config = some config) (passed : config.validate lib = .ok valid)
    (loaded : env.loadTablesState = .ok existing)
    (prepared : env.prepareSnapshot = .ok (lsn, snapshotID))
    (ran : (m.execute text lib env).tableStates = some states) :
    (∀ state ∈ states, ∃ own, text.parseLSN state.snapshotLSN = .ok own ∧
        (m.execute text lib env).lsn ≤ own) ↔
      ∀ tableCfg ∈ valid.valid.tables, ∀ state, existing tableCfg.name = some state →
        state.status = .completed → ∃ current own, text.parseLSN lsn = .ok current ∧
          text.parseLSN state.snapshotLSN = .ok own ∧ current ≤ own := by
  obtain ⟨parsed, initialised⟩ := m.execute_ran configured passed prepared ran
  have used := m.initTablesState_eq loaded initialised
  subst used
  have origin := fun tableCfg : SnapshotTableConfig =>
    m.prepareTableState_snapshotLSN tableCfg.name tableCfg (existing tableCfg.name) lsn
  constructor
  · intro covers tableCfg member state stored completed
    obtain ⟨own, read, atLeast⟩ := covers _ (List.mem_map.mpr ⟨tableCfg, member, rfl⟩)
    rcases origin tableCfg with ⟨done, found, -, kept⟩ | ⟨open_, -⟩
    · -- The state is used as it was stored.
      have same : state = done := Option.some.inj (stored.symm.trans found)
      rw [kept, ← same] at read
      exact ⟨_, own, parsed, read, atLeast⟩
    · exact absurd completed (open_ state stored)
  · intro completedLater state used
    obtain ⟨tableCfg, member, rfl⟩ := List.mem_map.mp used
    rcases origin tableCfg with ⟨done, stored, completed, kept⟩ | ⟨-, renewed⟩
    · obtain ⟨current, own, currentRead, ownRead, atLeast⟩ :=
        completedLater tableCfg member done stored completed
      rw [parsed] at currentRead
      cases currentRead
      rw [kept]
      exact ⟨own, ownRead, atLeast⟩
    · -- Every other table is taken at the position that is returned.
      rw [renewed]
      exact ⟨_, parsed, le_refl _⟩

namespace Sample

/-- A library that quotes without escapes and knows no durations. -/
def textLibrary : TextLibrary where
  quote text := "\"" ++ text ++ "\""
  parseDuration _ := .error "invalid duration"

/-- A snapshot of two whole tables. -/
def snapshotConfig : SnapshotConfig where
  mode := .auto
  config := [some ⟨"public.users", .full, ""⟩, some ⟨"public.orders", .full, ""⟩]
  batchSize := 0
  parallelWorkers := 2
  abortOnError := true
  queryTimeout := ""

def manager : SnapshotManager := ⟨some snapshotConfig, "pg2redis", fun _ => none⟩

/-- The first table, completed in a snapshot at a position. -/
def completedUsers (lsn : Nat) : TableState :=
  { TableState.new "public.users" "pg2redis" with
    snapshotLSN := lsnText.string lsn
    status := .completed }

/-- A run at position 20; the first table was completed at another. -/
def executeEnv (lsn : Nat) : ExecuteEnv where
  snapshotLSN := ""
  createSnapshotStateTable := .ok ()
  prepareSnapshot := .ok (lsnText.string 20, "00000003-1")
  loadTablesState := .ok fun name =>
    if name = "public.users" then some (completedUsers lsn) else none
  upsertTableState _ := .ok ()
  runSnapshot _ _ := .ok ()

end Sample

open Sample

/-- A table completed at the same position is covered by it. -/
theorem execute_covers_iff_same_position :
    ∃ states, (manager.execute lsnText textLibrary
        (executeEnv 20)) = ⟨20, none, some states⟩ ∧ states.length = 2 ∧
      ∀ state ∈ states, ∃ own, lsnText.parseLSN state.snapshotLSN = .ok own ∧ 20 ≤ own := by
  -- Only the first table is stored, at the position returned.
  obtain ⟨valid, passed⟩ : ∃ valid, snapshotConfig.validate textLibrary = .ok valid := ⟨_, rfl⟩
  obtain ⟨states, executed, length⟩ : ∃ states, (manager.execute lsnText
      textLibrary (executeEnv 20)) = ⟨20, none, some states⟩ ∧ states.length = 2 :=
    ⟨_, rfl, rfl⟩
  have covers := execute_covers_iff rfl passed rfl rfl (congrArg ExecuteResult.tableStates executed)
  refine ⟨states, executed, length, covers.mpr fun tableCfg member state stored completed => ?_⟩
  have same : state = completedUsers 20 := by
    by_cases named : tableCfg.name = "public.users"
    · simpa [named] using stored.symm
    · simp [named] at stored
  subst same
  exact ⟨20, 20, rfl, rfl, le_refl _⟩

/-- A table completed at a smaller position is not covered. -/
theorem execute_passes_completed :
    ∃ states, (manager.execute lsnText textLibrary (executeEnv 10)) = ⟨20, none, some states⟩ ∧
      completedUsers 10 ∈ states ∧
      ¬ ∃ own, lsnText.parseLSN (completedUsers 10).snapshotLSN = .ok own ∧ 20 ≤ own := by
  refine ⟨_, rfl, List.mem_cons_self, ?_⟩
  rintro ⟨own, read, atLeast⟩
  have ten : own = 10 := (Except.ok.inj read).symm
  omega

end PgWalk
