import PgWalk.Wal.Schema

/-! The snapshot section of the configuration and what its validation leaves. -/

namespace PgWalk

open List

inductive SnapshotMode
  | oneTime
  | oneTimeOnly
  | auto
  | never
  -- The mode is left out.
  | unset
  | other (name : String)
deriving DecidableEq

def SnapshotMode.text : SnapshotMode → String
  | .oneTime => "onetime"
  | .oneTimeOnly => "onetime_only"
  | .auto => "auto"
  | .never => "never"
  | .unset => ""
  | .other name => name

inductive SnapshotTableType
  | full
  | query
  | other (name : String)
deriving DecidableEq

def SnapshotTableType.text : SnapshotTableType → String
  | .full => "full"
  | .query => "query"
  | .other name => name

structure SnapshotTableConfig where
  name : String
  type : SnapshotTableType
  query : String
deriving DecidableEq

/-- The snapshot section. An entry of the list may be null. -/
structure SnapshotConfig where
  mode : SnapshotMode
  config : List (Option SnapshotTableConfig)
  batchSize : Int
  parallelWorkers : Int
  abortOnError : Bool
  queryTimeout : String

inductive SnapshotConfigError
  | noTables (mode : SnapshotMode)
  | queryTimeout (timeout err : String)
  | nullTable
  | emptyName
  | duplicate (tableName : String)
  | emptyQuery (tableName : String)
  | unsupportedType (type : SnapshotTableType) (tableName : String)
deriving DecidableEq

/-- The parts of the standard library that validation calls. -/
structure TextLibrary where
  -- A text between quotes, with escapes where they are needed.
  quote : String → String
  parseDuration : String → Except String Int

def SnapshotConfigError.text (lib : TextLibrary) : SnapshotConfigError → String
  | .noTables mode =>
    "snapshot config must define at least one table when mode is " ++ lib.quote mode.text
  | .queryTimeout timeout err =>
    "invalid snapshot query timeout " ++ lib.quote timeout ++ ": " ++ err
  | .nullTable => "snapshot config is empty"
  | .emptyName => "snapshot table name must not be empty"
  | .duplicate tableName =>
    "snapshot table " ++ lib.quote tableName ++ " is configured more than once"
  | .emptyQuery tableName =>
    "snapshot query for table " ++ lib.quote tableName ++ " must not be empty"
  | .unsupportedType type tableName =>
    "unsupported snapshot type " ++ lib.quote type.text ++ " for table " ++ lib.quote tableName

/-- The characters that are trimmed from both ends of a text. -/
def isSpace (c : Char) : Bool :=
  c ∈ ['\t', '\n', '\u000b', '\u000c', '\r', ' ', '\u0085', '\u00a0', '\u1680', '\u2028',
    '\u2029', '\u202f', '\u205f', '\u3000'] || (decide ('\u2000' ≤ c) && decide (c ≤ '\u200a'))

def trimSpace (text : String) : String :=
  String.ofList ((text.toList.dropWhile isSpace).reverse.dropWhile isSpace).reverse

variable (cfg : SnapshotTableConfig)

/-- A named table of a known type, with a query if the type asks for one. -/
def SnapshotTableConfig.WellFormed : Prop :=
  cfg.name ≠ "" ∧ (cfg.type = .full ∨ cfg.type = .query ∧ trimSpace cfg.query ≠ "")

/-- What is wrong with the type of a table, if anything is. -/
def SnapshotTableConfig.typeError : Option SnapshotConfigError :=
  match cfg.type with
  | .full => none
  | .query => if trimSpace cfg.query = "" then some (.emptyQuery cfg.name) else none
  | .other _ => some (.unsupportedType cfg.type cfg.name)

theorem SnapshotTableConfig.wellFormed_of_typeError
    (named : cfg.name ≠ "") (fine : cfg.typeError = none) : cfg.WellFormed := by
  refine ⟨named, ?_⟩
  cases type : cfg.type with
  | full => exact .inl rfl
  | query =>
    simp only [typeError, type, ite_eq_right_iff, reduceCtorEq, imp_false] at fine
    exact .inr ⟨rfl, fine⟩
  | other name => simp [typeError, type] at fine

/-- Tables that pass validation behind those whose names were seen. -/
structure ValidTables (seen : List String) where
  tables : List SnapshotTableConfig
  fresh : ∀ cfg ∈ tables, cfg.name ∉ seen
  distinct : (tables.map SnapshotTableConfig.name).Nodup
  wellFormed : ∀ cfg ∈ tables, cfg.WellFormed

/-- Put a table in front of others that were validated behind it. -/
def ValidTables.cons {seen : List String} (cfg : SnapshotTableConfig) (new : cfg.name ∉ seen)
    (fine : cfg.WellFormed) (rest : ValidTables (cfg.name :: seen)) : ValidTables seen where
  tables := cfg :: rest.tables
  fresh := by
    intro other member
    rcases mem_cons.mp member with rfl | later
    · exact new
    · exact fun known => rest.fresh other later (mem_cons_of_mem _ known)
  distinct := by
    refine nodup_cons.mpr ⟨fun repeated => ?_, rest.distinct⟩
    obtain ⟨other, later, same⟩ := mem_map.mp repeated
    exact rest.fresh other later (same ▸ mem_cons_self)
  wellFormed := by
    intro other member
    rcases mem_cons.mp member with rfl | later
    · exact fine
    · exact rest.wellFormed other later

/-- Validate the tables in order, each one with its name trimmed. -/
def validateTables (seen : List String) :
    List (Option SnapshotTableConfig) → Except SnapshotConfigError (ValidTables seen)
  | [] => .ok ⟨[], by simp, nodup_nil, by simp⟩
  | none :: _ => .error .nullTable
  | some raw :: rest =>
    let cfg := { raw with name := trimSpace raw.name }
    if named : cfg.name = "" then .error .emptyName
    else if new : cfg.name ∈ seen then .error (.duplicate cfg.name)
    else match type : cfg.typeError with
      | some err => .error err
      | none => (validateTables (cfg.name :: seen) rest).map fun valid =>
          valid.cons cfg new (cfg.wellFormed_of_typeError named type)

/-- Every table of the configuration is validated. -/
theorem validateTables_length {seen : List String} {configs : List (Option SnapshotTableConfig)}
    {valid : ValidTables seen} (passed : validateTables seen configs = .ok valid) :
    valid.tables.length = configs.length := by
  induction configs generalizing seen with
  | nil =>
    cases passed
    rfl
  | cons first rest ih =>
    cases first with
    | none => cases passed
    | some raw =>
      simp only [validateTables] at passed
      split at passed
      · cases passed
      split at passed
      · cases passed
      split at passed
      · cases passed
      cases later : validateTables (trimSpace raw.name :: seen) rest with
      | error err => simp [later, Except.map] at passed
      | ok tail =>
        simp only [later, Except.map, Except.ok.injEq] at passed
        subst passed
        simp [ValidTables.cons, ih later]

/-- A snapshot section after validation, with its defaults filled in. -/
structure ValidSnapshotConfig where
  mode : SnapshotMode
  valid : ValidTables []
  batchSize : Int
  batchPositive : 0 < batchSize
  parallelWorkers : Int
  workersPositive : 0 < parallelWorkers
  abortOnError : Bool
  -- Something is to be done unless the mode says otherwise.
  needed : mode ≠ .never → valid.tables ≠ []

/-- Fill in the defaults and validate a snapshot section. -/
def SnapshotConfig.validate (lib : TextLibrary) (c : SnapshotConfig) :
    Except SnapshotConfigError ValidSnapshotConfig :=
  let mode := if c.mode = .unset then .oneTime else c.mode
  if unneeded : mode ≠ .never ∧ c.config = [] then .error (.noTables mode)
  else match (if c.queryTimeout = "" then .ok 0 else lib.parseDuration c.queryTimeout) with
    | .error err => .error (.queryTimeout c.queryTimeout err)
    | .ok _ =>
      match passed : validateTables [] c.config with
      | .error err => .error err
      | .ok valid => .ok {
          mode := mode
          valid := valid
          batchSize := if c.batchSize ≤ 0 then 1000 else c.batchSize
          batchPositive := by split <;> omega
          parallelWorkers := if c.parallelWorkers ≤ 0 then 1 else c.parallelWorkers
          workersPositive := by split <;> omega
          abortOnError := c.abortOnError
          needed := by
            intro active empty
            have length := validateTables_length passed
            rw [empty] at length
            exact unneeded ⟨active, length_eq_zero_iff.mp length.symm⟩ }

end PgWalk
