import Mathlib.Algebra.GroupWithZero.Nat
import PgWalk.Redis.Faults

/-! The writer of one table: its compiled commands and what it enqueues for a row. -/

namespace PgWalk.Redis

open List

variable {V F : Type}

structure RedisCompiledCommandConfig where
  name : String
  args : List RedisCompiledCommand
deriving DecidableEq

structure RedisCompiledCommandGroup where
  condition : Option ConditionConfig
  commands : List RedisCompiledCommandConfig
deriving DecidableEq

def compileCommandConfig : List String → Option RedisCompiledCommandConfig
  | [] => none
  | name :: args => some ⟨toUpper name, args.map compileCommand⟩

/-- Compile groups of commands, and drop those nothing is left of. -/
def mustCompileCommandGroups (groups : List RedisCommandWithCondition) :
    List RedisCompiledCommandGroup :=
  (groups.map fun group => ⟨group.condition, group.commands.filterMap compileCommandConfig⟩).filter
    fun compiled => !compiled.commands.isEmpty

/-- What a deletion does where nothing else is configured. -/
def defaultDeleteCommands (tableName : String) : List RedisCommandWithCondition :=
  [⟨[["DEL", tableName ++ ":%pk%"]], none⟩]

structure RedisDynamicWriter where
  txOpts : TxCommitTimeOptions
  resolvedCommands : List RedisCompiledCommandGroup
  insertCommands : List RedisCompiledCommandGroup
  updateCommands : List RedisCompiledCommandGroup
  deleteCommands : List RedisCompiledCommandGroup
  defaultDeleteCommands : List RedisCompiledCommandGroup

def createPipelineWriter (cfg : RedisTableConfig) (txOpts : TxCommitTimeOptions) :
    RedisDynamicWriter where
  txOpts := txOpts
  resolvedCommands := mustCompileCommandGroups cfg.resolvedCommands
  insertCommands := mustCompileCommandGroups cfg.insertCommands
  updateCommands := mustCompileCommandGroups cfg.updateCommands
  deleteCommands := mustCompileCommandGroups cfg.deleteCommands
  defaultDeleteCommands := mustCompileCommandGroups (defaultDeleteCommands cfg.fullName)

inductive OperationType
  | insert
  | update
  | delete
deriving DecidableEq

/-- The operation a row is written by. Rows of a snapshot are inserted. -/
def OperationType.ofKind : OpKind → OperationType
  | .insert | .snapshotRead => .insert
  | .update => .update
  | .delete => .delete

/-- A command with its arguments, the name among them. -/
structure RedisCommand (F : Type) where
  name : String
  args : ArgArray F
  table : String

namespace RedisDynamicWriter

variable (w : RedisDynamicWriter)

def getCommands (op : OperationType) : List RedisCompiledCommandGroup :=
  let ops := match op with
    | .insert => w.insertCommands
    | .update => w.updateCommands
    | .delete => w.deleteCommands
  if ops ≠ [] then ops
  -- A deletion without commands of its own deletes the row's key.
  else if op = .delete then w.defaultDeleteCommands
  else w.resolvedCommands

/-- Fill the arguments of a command in, one behind the other. -/
def fillArgs (w : RedisDynamicWriter) (lib : RedisLib V F) (entry : WriteEntry V)
    (commitTime xid : Nat) (tuple : EntryTuple V) (arr : ArgArray F) (next : Nat) :
    List RedisCompiledCommand → Except Fault (EntryTuple V × ArgArray F × Nat)
  | [] => .ok (tuple, arr, next)
  | cmdArg :: rest => do
    let (tuple, arr, next) ← cmdArg.fill lib w.txOpts entry commitTime xid tuple arr next
    w.fillArgs lib entry commitTime xid tuple arr next rest

variable (lib : RedisLib V F) (entry : WriteEntry V) (commitTime xid : Nat)

/-- Build a row's command: count its arguments, then fill them in. -/
def buildCommand
    (tuple : EntryTuple V) (cmdCfg : RedisCompiledCommandConfig) :
    Except Fault (EntryTuple V × Option (RedisCommand F)) :=
  if cmdCfg.name = "" then .ok (tuple, none)
  else do
    let lengths ← cmdCfg.args.mapM (RedisCompiledCommand.required w.txOpts tuple)
    let arr := some (.text cmdCfg.name) :: List.replicate lengths.sum none
    let (tuple, arr, next) ← w.fillArgs lib entry commitTime xid tuple arr 1 cmdCfg.args
    return (tuple, some ⟨cmdCfg.name, arr.take next, entry.table.fullName⟩)

/-- Build a group's commands; an error is reported with the name. -/
def buildCommands (w : RedisDynamicWriter) (lib : RedisLib V F) (entry : WriteEntry V)
    (commitTime xid : Nat) (tuple : EntryTuple V) :
    List RedisCompiledCommandConfig → Except Fault (EntryTuple V × List (RedisCommand F))
  | [] => .ok (tuple, [])
  | cmd :: rest =>
    match w.buildCommand lib entry commitTime xid tuple cmd with
    | .error (.error text) => .error (.error ("failed to build Redis command " ++ cmd.name ++
        " for table " ++ entry.table.fullName ++ ": " ++ text))
    | .error fault => .error fault
    | .ok (tuple, resolved) => do
      let (tuple, others) ← w.buildCommands lib entry commitTime xid tuple rest
      return (tuple, resolved.toList ++ others)

/-- Whether a group is executed; a condition that fails does not hold. -/
def selects (group : RedisCompiledCommandGroup) :
    Except Fault Bool :=
  match group.condition with
  | none => .ok true
  | some cond =>
    match evaluate lib cond entry with
    | .error (.error _) => .ok false
    | result => result

/-- Build the commands of a group, if it is executed for a row. -/
def buildGroup
    (tuple : EntryTuple V) (group : RedisCompiledCommandGroup) :
    Except Fault (EntryTuple V × List (RedisCommand F)) := do
  -- The condition sees the tuple as the commands before it have left it.
  let selected ← selects lib { entry with tuple := tuple } group
  if selected then w.buildCommands lib entry commitTime xid tuple group.commands
  else return (tuple, [])

/-- Build the commands of all groups that are executed for a row. -/
def buildGroups (w : RedisDynamicWriter) (lib : RedisLib V F) (entry : WriteEntry V)
    (commitTime xid : Nat) (tuple : EntryTuple V) :
    List RedisCompiledCommandGroup → Except Fault (EntryTuple V × List (RedisCommand F))
  | [] => .ok (tuple, [])
  | group :: rest => do
    let (tuple, resolved) ← w.buildGroup lib entry commitTime xid tuple group
    let (tuple, others) ← w.buildGroups lib entry commitTime xid tuple rest
    return (tuple, resolved ++ others)

/-- A command without arguments, as it frames a transaction. -/
def frame (name : String) : ArgArray F := [some (.text name)]

/-- A row's commands as enqueued: a transaction if there are several. -/
def enqueued : List (RedisCommand F) → List (ArgArray F)
  | [] => []
  | [cmd] => [cmd.args]
  | cmds => frame "MULTI" :: cmds.map RedisCommand.args ++ [frame "EXEC"]

/-- Enqueue a row's commands, and return the tuple they leave. -/
def write
    : Except Fault (EntryTuple V × List (ArgArray F)) :=
  match w.getCommands (.ofKind entry.kind) with
  | [] => .error (.fatal "no commands configured")
  | commands => do
    let (tuple, resolved) ← w.buildGroups lib entry commitTime xid entry.tuple commands
    return (tuple, enqueued resolved)

end RedisDynamicWriter

def IsFatal : Fault → Prop
  | .fatal _ => True
  | .error _ | .panic _ => False

theorem spares_isFatal : Spares IsFatal := ⟨fun _ => id, id, id, id⟩

theorem deref_survives (tuple : EntryTuple V) : Avoids IsFatal tuple.deref := by
  rcases tuple with _ | _ | om
  · exact .error id
  · exact .error id
  · exact .ok om

theorem lookup_survives (tuple : EntryTuple V) (column : String) :
    Avoids IsFatal (tuple.lookup column) := by
  simp only [EntryTuple.lookup]
  split
  · exact .ok _
  · exact get_avoids (deref_survives tuple) column

namespace RedisDynamicWriter

section

variable (w : RedisDynamicWriter) (lib : RedisLib V F) (entry : WriteEntry V)
  (commitTime xid : Nat)

include w lib entry commitTime xid

variable (tuple : EntryTuple V)

theorem fillArgs_survives (arr : ArgArray F) (next : Nat)
    (args : List RedisCompiledCommand) :
    Avoids IsFatal (w.fillArgs lib entry commitTime xid tuple arr next args) := by
  induction args generalizing tuple arr next with
  | nil => exact .ok _
  | cons arg rest ih =>
    exact (fill_avoids spares_isFatal (deref_survives tuple) (lookup_survives entry.prevTuple)
      lib w.txOpts commitTime xid arr next arg).bind fun filled => ih _ _ _

theorem buildCommand_survives (cmd : RedisCompiledCommandConfig) :
    Avoids IsFatal (w.buildCommand lib entry commitTime xid tuple cmd) := by
  simp only [buildCommand]
  split
  · exact .ok _
  · exact (Avoids.mapM (required_avoids (deref_survives tuple) w.txOpts) _).bind fun _ =>
      (fillArgs_survives _ _ _ _ _ _ _ _ _).bind fun _ => .ok _

theorem buildCommands_survives (cmds : List RedisCompiledCommandConfig) :
    Avoids IsFatal (w.buildCommands lib entry commitTime xid tuple cmds) := by
  induction cmds generalizing tuple with
  | nil => exact .ok _
  | cons cmd rest ih =>
    have built := buildCommand_survives w lib entry commitTime xid tuple cmd
    simp only [buildCommands]
    split
    · exact .error id
    · rename_i failed
      exact .error fun fatal => built _ fatal failed
    · exact (ih _).bind fun _ => .ok _

end

theorem selects_survives (lib : RedisLib V F) (entry : WriteEntry V)
    (group : RedisCompiledCommandGroup) : Avoids IsFatal (selects lib entry group) := by
  simp only [selects]
  split
  · exact .ok _
  · split
    · exact .ok _
    · exact evaluate_avoids spares_isFatal (deref_survives _) (lookup_survives _) _ _

theorem buildGroups_survives (w : RedisDynamicWriter) (lib : RedisLib V F)
    (entry : WriteEntry V) (commitTime xid : Nat) (tuple : EntryTuple V)
    (groups : List RedisCompiledCommandGroup) :
    Avoids IsFatal (w.buildGroups lib entry commitTime xid tuple groups) := by
  have one : ∀ tuple group,
      Avoids IsFatal (w.buildGroup lib entry commitTime xid tuple group) := by
    intro tuple group
    refine (selects_survives lib _ group).bind fun selected => ?_
    cases selected
    · exact .ok _
    · exact buildCommands_survives _ _ _ _ _ _ _
  induction groups generalizing tuple with
  | nil => exact .ok _
  | cons group rest ih => exact (one tuple group).bind fun _ => (ih _).bind fun _ => .ok _

theorem write_fatal_iff (w : RedisDynamicWriter) (lib : RedisLib V F) (entry : WriteEntry V)
    (commitTime xid : Nat) :
    w.write lib entry commitTime xid = .error (.fatal "no commands configured") ↔
      w.getCommands (.ofKind entry.kind) = [] := by
  simp only [write]
  split
  · rename_i none
    simp [none]
  · rename_i some_commands
    have survives := (buildGroups_survives w lib entry commitTime xid entry.tuple
      (w.getCommands (.ofKind entry.kind))).bind fun built => .ok (built.1, enqueued built.2)
    exact iff_of_false (survives _ trivial) some_commands

end RedisDynamicWriter

variable {groups : List RedisCommandWithCondition} {tableName : String}

theorem mustCompileCommandGroups_length (executable : ∀ group ∈ groups, Executable group.commands) :
    (mustCompileCommandGroups groups).length = groups.length := by
  -- Every command with a name is compiled, so nothing is dropped.
  have kept : ∀ group ∈ groups, group.commands.filterMap compileCommandConfig ≠ [] := by
    intro group member empty
    obtain ⟨some_command, named⟩ := executable group member
    obtain ⟨cmd, rest, commands⟩ := exists_cons_of_ne_nil some_command
    obtain ⟨name, args, parts⟩ := exists_cons_of_ne_nil (named cmd (by simp [commands]))
    simp [commands, parts, compileCommandConfig] at empty
  have all : ∀ compiled ∈ groups.map (fun group =>
      RedisCompiledCommandGroup.mk group.condition (group.commands.filterMap compileCommandConfig)),
      (!compiled.commands.isEmpty) = true := by
    intro compiled member
    obtain ⟨group, stored, rfl⟩ := mem_map.mp member
    simpa using kept group stored
  rw [mustCompileCommandGroups, filter_eq_self.mpr all, length_map]

theorem mustCompileCommandGroups_eq_nil (executable : ∀ group ∈ groups, Executable group.commands) :
    mustCompileCommandGroups groups = [] ↔ groups = [] := by
  rw [← length_eq_zero_iff, mustCompileCommandGroups_length executable, length_eq_zero_iff]

theorem executable_of_validateGroup {group : RedisCommandWithCondition}
    (fine : validateGroup tableName group = []) : Executable group.commands := by
  simp only [validateGroup] at fine
  split at fine
  · cases fine
  · rename_i some_command
    refine ⟨by simpa using some_command, fun cmd member empty => ?_⟩
    have each := flatMap_eq_nil_iff.mp (append_eq_nil_iff.mp fine).1 cmd member
    subst empty
    cases each

/-- An operation's commands are written, or left from earlier. -/
def Written (op : Option TableOperationConfig) (earlier : List RedisCommandWithCondition) : Prop :=
  match op with
  | none => earlier ≠ []
  | some op => op.commands ≠ []

namespace RedisTableConfig

def WritesNothing (cfg : RedisTableConfig) : Prop :=
  cfg.commands = [] ∧ ¬ Written cfg.insert cfg.insertCommands ∧
    ¬ Written cfg.update cfg.updateCommands ∧ ¬ Written cfg.delete cfg.deleteCommands

/--
A table has commands for an operation: they are written for it or for every operation, or nothing is
written at all and the default is taken. A deletion always has its own default.
-/
def Covers (cfg : RedisTableConfig) : OperationType → Prop
  | .insert => cfg.commands ≠ [] ∨ Written cfg.insert cfg.insertCommands ∨ cfg.WritesNothing
  | .update => cfg.commands ≠ [] ∨ Written cfg.update cfg.updateCommands ∨ cfg.WritesNothing
  | .delete => True

theorem resolveOperation_ne_nil {op : Option TableOperationConfig}
    {earlier : List RedisCommandWithCondition} (fine : (resolveOperation op earlier).2 = []) :
    (resolveOperation op earlier).1 ≠ [] ↔ Written op earlier := by
  cases op with
  | none => rfl
  | some op =>
    have length := resolveCommandsStrict_length fine
    simp only [resolveOperation, Written, Ne, ← length_eq_zero_iff]
    rw [← length]

variable {tableName : String}

theorem validationErr_eq_nil {fieldName : String} {errs : List String} :
    validationErr tableName fieldName errs = [] ↔ errs = [] := by
  cases errs <;> simp [validationErr]

/-- What reading the commands of a table without an error leaves. -/
theorem wellForm_spec {cfg : RedisTableConfig} (fine : (cfg.wellForm tableName).2 = []) :
    ((cfg.wellForm tableName).1.insertCommands ≠ [] ↔ Written cfg.insert cfg.insertCommands) ∧
      ((cfg.wellForm tableName).1.updateCommands ≠ [] ↔ Written cfg.update cfg.updateCommands) ∧
      ((cfg.wellForm tableName).1.resolvedCommands ≠ [] ↔
        cfg.commands ≠ [] ∨ cfg.WritesNothing) := by
  -- The default is filled in exactly when nothing has been read.
  have errs : (cfg.wellForm tableName).2 =
      validationErr tableName "commands" (resolveCommandsStrict cfg.commands).2 ++
        validationErr tableName "insert.commands"
          (resolveOperation cfg.insert cfg.insertCommands).2 ++
        validationErr tableName "update.commands"
          (resolveOperation cfg.update cfg.updateCommands).2 ++
        validationErr tableName "delete.commands"
          (resolveOperation cfg.delete cfg.deleteCommands).2 := by
    simp only [wellForm]
    split <;> rfl
  rw [errs] at fine
  simp only [append_eq_nil_iff, validationErr_eq_nil, and_assoc] at fine
  obtain ⟨commandsFine, insertFine, updateFine, deleteFine⟩ := fine
  have insert := resolveOperation_ne_nil insertFine
  have update := resolveOperation_ne_nil updateFine
  have delete := resolveOperation_ne_nil deleteFine
  have commands : (resolveCommandsStrict cfg.commands).1 ≠ [] ↔ cfg.commands ≠ [] := by
    rw [Ne, Ne, ← length_eq_zero_iff, resolveCommandsStrict_length commandsFine, length_eq_zero_iff]
  simp only [wellForm]
  split
  · rename_i nothing
    simp only [hasNoCommands, Bool.and_eq_true, List.isEmpty_iff, and_assoc] at nothing
    obtain ⟨noCommands, noInsert, noUpdate, noDelete⟩ := nothing
    refine ⟨insert, update, iff_of_true (by simp [defaultCommands]) (.inr ⟨?_, ?_, ?_, ?_⟩)⟩
    · exact not_not.mp fun some_command => commands.mpr some_command noCommands
    · exact fun written => insert.mpr written noInsert
    · exact fun written => update.mpr written noUpdate
    · exact fun written => delete.mpr written noDelete
  · rename_i something
    refine ⟨insert, update, ?_⟩
    rw [commands]
    refine (or_iff_left ?_).symm
    rintro ⟨noCommands, noInsert, noUpdate, noDelete⟩
    refine something ?_
    simp only [hasNoCommands, Bool.and_eq_true, List.isEmpty_iff]
    refine ⟨⟨⟨?_, ?_⟩, ?_⟩, ?_⟩
    · exact not_not.mp fun read => commands.mp read noCommands
    · exact not_not.mp fun read => noInsert (insert.mp read)
    · exact not_not.mp fun read => noUpdate (update.mp read)
    · exact not_not.mp fun read => noDelete (delete.mp read)

end RedisTableConfig

theorem RedisAppConfigBuilder.table_accepted {lib : TextLibrary} {rb : RedisAppConfigBuilder}
    {config : RedisAppConfig} (given : rb.config = some config)
    (accepted : rb.wellForm.validate lib = []) {cfg : RedisTableConfig}
    (member : (tableName, cfg) ∈ wellFormTableNames config.tables) :
    (cfg.wellForm tableName).2 = [] ∧ (cfg.wellForm tableName).1.validate tableName = [] := by
  simp only [wellForm, validate, given] at accepted
  obtain ⟨⟨readErrs, tableErrs⟩, -⟩ := by
    simpa only [append_eq_nil_iff] using accepted
  constructor
  · exact flatMap_eq_nil_iff.mp readErrs (tableName, cfg.wellForm tableName)
      (mem_map.mpr ⟨_, member, rfl⟩)
  · refine flatMap_eq_nil_iff.mp tableErrs (tableName, (cfg.wellForm tableName).1) ?_
    simp only [map_map]
    exact mem_map.mpr ⟨_, member, rfl⟩

/--
An accepted configuration has commands for a kind of row exactly when it covers the operation.
-/
theorem commands_configured_iff {textLib : TextLibrary} {rb : RedisAppConfigBuilder}
    {config : RedisAppConfig} (given : rb.config = some config)
    (accepted : rb.wellForm.validate textLib = []) {tableName : String} {cfg : RedisTableConfig}
    (member : (tableName, cfg) ∈ wellFormTableNames config.tables) (txOpts : TxCommitTimeOptions)
    (lib : RedisLib V F) (kind : OpKind) :
    let w := createPipelineWriter (cfg.wellForm tableName).1 txOpts
    (w.getCommands (.ofKind kind) ≠ [] ∧
      ∀ (entry : WriteEntry V) (commitTime xid : Nat), entry.kind = kind →
        w.write lib entry commitTime xid ≠ .error (.fatal "no commands configured")) ↔
      cfg.Covers (.ofKind kind) := by
  -- Every valid list of groups is compiled without a loss.
  intro w
  obtain ⟨fine, valid⟩ := RedisAppConfigBuilder.table_accepted given accepted member
  obtain ⟨insert, update, resolved⟩ := RedisTableConfig.wellForm_spec fine
  simp only [RedisTableConfig.validate, append_eq_nil_iff, validateCommands,
    flatMap_eq_nil_iff, and_assoc] at valid
  obtain ⟨-, -, resolvedValid, insertValid, updateValid, deleteValid⟩ := valid
  have compiled : ∀ {groups : List RedisCommandWithCondition},
      (∀ group ∈ groups, validateGroup tableName group = []) →
      (mustCompileCommandGroups groups ≠ [] ↔ groups ≠ []) := fun each =>
    not_congr (mustCompileCommandGroups_eq_nil fun group stored =>
      executable_of_validateGroup (each group stored))
  have insertCompiled : w.insertCommands ≠ [] ↔ Written cfg.insert cfg.insertCommands :=
    (compiled insertValid).trans insert
  have updateCompiled : w.updateCommands ≠ [] ↔ Written cfg.update cfg.updateCommands :=
    (compiled updateValid).trans update
  have resolvedCompiled : w.resolvedCommands ≠ [] ↔ cfg.commands ≠ [] ∨ cfg.WritesNothing :=
    (compiled resolvedValid).trans resolved
  have unreachable : (∀ (entry : WriteEntry V) (commitTime xid : Nat), entry.kind = kind →
      w.write lib entry commitTime xid ≠ .error (.fatal "no commands configured")) ∨
      w.getCommands (.ofKind kind) = [] := by
    by_cases empty : w.getCommands (.ofKind kind) = []
    · exact .inr empty
    · refine .inl fun entry commitTime xid same ended => empty ?_
      rw [← same]
      exact (w.write_fatal_iff lib entry commitTime xid).mp ended
  have chosen : w.getCommands (.ofKind kind) ≠ [] ↔ cfg.Covers (.ofKind kind) := by
    -- The operation's own commands come first.
    have either : ∀ ops : List RedisCompiledCommandGroup,
        (if ops ≠ [] then ops else w.resolvedCommands) ≠ [] ↔
          ops ≠ [] ∨ w.resolvedCommands ≠ [] := by
      intro ops
      by_cases some_op : ops = [] <;> simp [some_op]
    cases kind with
    | insert | snapshotRead =>
      have same : w.getCommands .insert =
          if w.insertCommands ≠ [] then w.insertCommands else w.resolvedCommands := rfl
      simp only [OperationType.ofKind, same, either, RedisTableConfig.Covers]
      rw [insertCompiled, resolvedCompiled]
      exact or_left_comm
    | update =>
      have same : w.getCommands .update =
          if w.updateCommands ≠ [] then w.updateCommands else w.resolvedCommands := rfl
      simp only [OperationType.ofKind, same, either, RedisTableConfig.Covers]
      rw [updateCompiled, resolvedCompiled]
      exact or_left_comm
    | delete =>
      refine iff_of_true ?_ trivial
      simp only [OperationType.ofKind, RedisDynamicWriter.getCommands, if_pos]
      split
      · assumption
      · -- The default deletion is a single command with a name.
        have default : w.defaultDeleteCommands.length = 1 :=
          mustCompileCommandGroups_length (by simp [defaultDeleteCommands, Executable])
        exact ne_nil_of_length_eq_add_one default
  rw [← chosen]
  constructor
  · exact And.left
  · intro some_command
    exact ⟨some_command, unreachable.resolve_right some_command⟩

namespace Sample

/-- A command that sets the row's key. -/
def setRow : Raw := .list [.str "SET", .str "\x7b%pk%\x7d", .str "\x7bjson:*\x7d"]

def insertOnly : RedisTableConfig where
  fullName := ""
  insert := some ⟨[setRow]⟩
  update := none
  delete := none
  commands := []
  resolvedCommands := []
  insertCommands := []
  updateCommands := []
  deleteCommands := []

/-- A configuration of that table and nothing else. -/
def insertOnlyBuilder : RedisAppConfigBuilder where
  config := some ⟨[("users", insertOnly)], none⟩
  validationErr := []

def insertOnlyUsers : RedisTableConfig := { insertOnly with fullName := "public.users" }

def updatedRow : WriteEntry (List UInt8) where
  tuple := .pointer (some ⟨[some [49]], [true], 1, ⟨["id"]⟩⟩)
  prevTuple := .pointer none
  pk := "1"
  kind := .update
  table := makeTableName "public" "users"
  offset := 0

def bytesText (data : List UInt8) : String :=
  String.ofList (data.map fun byte => Char.ofNat byte.toNat)

/-- Values kept as bytes, with their lengths as numbers. -/
def lib : RedisLib (List UInt8) Nat where
  ofText text := text.toList.map fun c => UInt8.ofNat c.toNat
  stringify := bytesText
  toFloat := List.length
  zero := 0
  sub a b := a - b
  encodeKey key := .ok key
  encodeValue value := .ok ((value.map bytesText).getD "null")
  formatTime time := toString time
  conditionText := bytesText
  conditionFloat _ := none
  floatLess a b := a < b
  floatLessEq a b := a ≤ b

/-- No text is quoted and no duration is read. -/
def textLib : TextLibrary where
  quote text := text
  parseDuration _ := .error "no duration"

end Sample

open Redis.Sample

/-- Inserted rows of the table have commands. -/
theorem commands_configured_iff_inserted :
    (createPipelineWriter (insertOnlyUsers.wellForm "public.users").1
      ⟨false, ""⟩).getCommands (.ofKind .insert) ≠ [] := by
  have accepted : insertOnlyBuilder.wellForm.validate textLib = [] := by decide
  have member : ("public.users", insertOnlyUsers) ∈
      wellFormTableNames [("users", insertOnly)] := .head _
  have covered : insertOnlyUsers.Covers .insert := .inr (.inl (by simp [Written,
    insertOnlyUsers, insertOnly]))
  exact ((commands_configured_iff rfl accepted member ⟨false, ""⟩ Sample.lib .insert).mpr
    covered).1

/-- An accepted configuration's first changed row ends the process. -/
theorem commands_missing_for_update :
    insertOnlyBuilder.wellForm.validate textLib = [] ∧ ("public.users", insertOnlyUsers) ∈
        wellFormTableNames [("users", insertOnly)] ∧
      (createPipelineWriter (insertOnlyUsers.wellForm "public.users").1
        ⟨false, ""⟩).write Sample.lib updatedRow 0 7 =
        .error (.fatal "no commands configured") :=
  ⟨by decide, .head _, rfl⟩

end PgWalk.Redis
