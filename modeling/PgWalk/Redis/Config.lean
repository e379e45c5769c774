import PgWalk.Snapshot.Config

/-! The tables of the Redis configuration: reading, defaulting and validating their commands. -/

namespace PgWalk.Redis

open List

/-- A configuration value as loaded; the keys of a map are distinct. -/
inductive Raw
  | nil
  | str (text : String)
  | list (items : List Raw)
  | strings (items : List String)
  | map (fields : List (String × Raw))
  -- Numbers and booleans, of which only the printed form matters.
  | other (text : String)

mutual

/-- A value as the default verb prints it. -/
def Raw.sprint : Raw → String
  | .nil => "<nil>"
  | .str text => text
  | .list items => "[" ++ " ".intercalate (Raw.sprintAll items) ++ "]"
  | .strings items => "[" ++ " ".intercalate items ++ "]"
  -- Maps are printed in the order of their keys.
  | .map fields => "map[" ++ " ".intercalate
      (((Raw.sprintFields fields).insertionSort fun a b => a.1 ≤ b.1).map fun field =>
        field.1 ++ ":" ++ field.2) ++ "]"
  | .other text => text

def Raw.sprintAll : List Raw → List String
  | [] => []
  | item :: rest => item.sprint :: Raw.sprintAll rest

/-- The values of a map as they are printed. -/
def Raw.sprintFields : List (String × Raw) → List (String × String)
  | [] => []
  | (key, value) :: rest => (key, value.sprint) :: Raw.sprintFields rest

end

/-- The value under a key of a map. -/
def field (fields : List (String × Raw)) (key : String) : Option Raw :=
  (fields.find? fun item => item.1 = key).map Prod.snd

/-- The text under a key of a map, empty where there is none. -/
def textField (fields : List (String × Raw)) (key : String) : String :=
  match field fields key with
  | some (.str text) => text
  | _ => ""

/-- Whether a key of a map has a value other than nil. -/
def hasField (fields : List (String × Raw)) (key : String) : Bool :=
  match field fields key with
  | none | some .nil => false
  | some _ => true

/-- A map's values under the numbers from a given one to the first gap. -/
def numbered (fields : List (String × Raw)) : Nat → Nat → List Raw
  | 0, _ => []
  | more + 1, index =>
    match field fields (toString index) with
    | some value => value :: numbered fields more (index + 1)
    | none => []

/-- The parts of a value that is a list, or that stands for one. -/
def resolveSliceParts : Raw → Option (List Raw)
  | .list items => some items
  | .strings items => some (items.map .str)
  | .map fields => some (numbered fields fields.length 0)
  | _ => none

/-- The parts of a value as texts. -/
def resolveStringSlice (raw : Raw) : List String :=
  ((resolveSliceParts raw).getD []).map Raw.sprint

inductive CommandError
  | invalidFormat
  | emptyGroup
  | notString (label : String) (index : Nat)
  | invalidCommand (index : Nat)
deriving DecidableEq

def CommandError.text : CommandError → String
  | .invalidFormat => "invalid command format"
  | .emptyGroup => "command group cannot be empty"
  | .notString label index =>
    "invalid command format: " ++ label ++ " argument " ++ toString index ++ " is not a string"
  | .invalidCommand index =>
    "invalid command format: command " ++ toString index ++ " is invalid or empty"

/-- The texts of a list, all of whose parts have to be texts. -/
def stringsOf (label : String) : Nat → List Raw → Except CommandError (List String)
  | _, [] => .ok []
  | index, .str text :: rest => do
    let others ← stringsOf label (index + 1) rest
    return text :: others
  | index, _ :: _ => .error (.notString label index)

/-- One command: a list of texts that is not empty. -/
def parseCommandStringSlice (raw : Raw) (label : String) : Except CommandError (List String) :=
  match resolveSliceParts raw with
  | none | some [] => .error .invalidFormat
  | some parts => stringsOf label 0 parts

/-- The commands of a list, counted from a given number on. -/
def parseCommandList : Nat → List Raw → Except CommandError (List (List String))
  | _, [] => .ok []
  | index, cmd :: rest =>
    match parseCommandStringSlice cmd ("command " ++ toString index) with
    | .error .invalidFormat => .error (.invalidCommand index)
    | .error err => .error err
    | .ok parts => do
      let others ← parseCommandList (index + 1) rest
      return parts :: others

def parseCommands : Raw → Except CommandError (List (List String))
  | .nil => .error .invalidFormat
  | .list [] => .error .emptyGroup
  -- A list that starts with a text is a single command.
  | .list (.str text :: rest) =>
    (parseCommandStringSlice (.list (.str text :: rest)) "command").map fun parts => [parts]
  | .list multi => parseCommandList 0 multi
  | raw => (parseCommandStringSlice raw "command").map fun parts => [parts]

inductive ConditionOperator
  | equal
  | notEqual
  | less
  | greater
  | lessEq
  | greaterEq
  | isIn
  | notIn
  | isNull
  | isNotNull
  | isDistinctFrom
  -- Anything else, the empty text among it.
  | other (text : String)
deriving DecidableEq

def ConditionOperator.text : ConditionOperator → String
  | .equal => "="
  | .notEqual => "<>"
  | .less => "<"
  | .greater => ">"
  | .lessEq => "<="
  | .greaterEq => ">="
  | .isIn => "in"
  | .notIn => "not_in"
  | .isNull => "is_null"
  | .isNotNull => "is_not_null"
  | .isDistinctFrom => "is_distinct_from"
  | .other text => text

def ConditionOperator.ofText (text : String) : ConditionOperator :=
  ([.equal, .notEqual, .less, .greater, .lessEq, .greaterEq, .isIn, .notIn, .isNull, .isNotNull,
    .isDistinctFrom].find? fun op : ConditionOperator => op.text = text).getD (.other text)

/-- When a group of commands is executed. -/
structure ConditionConfig where
  op : ConditionOperator
  column : String
  -- The operand of the operators that compare with one value.
  value : String
  -- The operands of the operators that compare with several values.
  values : List String
deriving DecidableEq

/-- A group of commands with an optional condition. -/
structure RedisCommandWithCondition where
  commands : List (List String)
  condition : Option ConditionConfig
deriving DecidableEq

/-- The condition of a group, which has to be a map to count. -/
def resolveCondition (fields : List (String × Raw)) : Option ConditionConfig :=
  match field fields "condition" with
  | some (.map cond) => some {
      op := .ofText (textField cond "op")
      column := textField cond "column"
      value := textField cond "value"
      values := ((field cond "values").map resolveStringSlice).getD [] }
  | _ => none

/-- A group written as its commands alone. -/
def resolvePlain (raw : Raw) : Except String (Option RedisCommandWithCondition) :=
  match parseCommands raw with
  | .error err => .error ("command: " ++ err.text)
  | .ok [] => .ok none
  | .ok parsed => .ok (some ⟨parsed, none⟩)

/-- A group written as a map with its commands and its condition. -/
def resolveConditional (fields : List (String × Raw)) :
    Except String (Option RedisCommandWithCondition) :=
  match field fields "command" with
  | none | some .nil =>
    .error (CommandError.invalidFormat.text ++ ": conditional command missing command")
  | some raw =>
    match parseCommands raw with
    | .error err => .error ("conditional command: " ++ err.text)
    | .ok [] => .ok none
    | .ok parsed => .ok (some ⟨parsed, resolveCondition fields⟩)

def resolveCommand : Raw → Except String (Option RedisCommandWithCondition)
  | .map fields =>
    if hasField fields "command" || hasField fields "condition" then resolveConditional fields
    else resolvePlain (.map fields)
  | raw => resolvePlain raw

/-- The groups of a list of commands, and what is wrong with the rest. -/
def resolveCommandsStrict : List Raw → List RedisCommandWithCondition × List String
  | [] => ([], [])
  | cmd :: rest =>
    let (groups, errs) := resolveCommandsStrict rest
    match resolveCommand cmd with
    | .error err => (groups, err :: errs)
    | .ok none => (groups, errs)
    | .ok (some group) => (group :: groups, errs)

structure TableOperationConfig where
  commands : List Raw

/-- A table's section: what is written, and what it is read as. -/
structure RedisTableConfig where
  fullName : String
  insert : Option TableOperationConfig
  update : Option TableOperationConfig
  delete : Option TableOperationConfig
  -- The commands of every operation that has none of its own.
  commands : List Raw
  resolvedCommands : List RedisCommandWithCondition
  insertCommands : List RedisCommandWithCondition
  updateCommands : List RedisCommandWithCondition
  deleteCommands : List RedisCommandWithCondition

/-- What no commands stand for: every column stored in a hash. -/
def defaultCommands (fullName : String) : List RedisCommandWithCondition :=
  [⟨[["HSET", fullName ++ ":" ++ "\x7b%pk%\x7d", "\x7bpairs:*\x7d"]], none⟩]

namespace RedisTableConfig

def hasNoCommands (cfg : RedisTableConfig) : Bool :=
  cfg.resolvedCommands.isEmpty && cfg.insertCommands.isEmpty && cfg.updateCommands.isEmpty &&
    cfg.deleteCommands.isEmpty

/-- An operation's commands, read only where it has a section. -/
def resolveOperation (op : Option TableOperationConfig) (earlier : List RedisCommandWithCondition) :
    List RedisCommandWithCondition × List String :=
  match op with
  | none => (earlier, [])
  | some op => resolveCommandsStrict op.commands

/-- The errors of a field of a table, which are reported as one. -/
def validationErr (tableName fieldName : String) (errs : List String) : List String :=
  if errs.isEmpty then []
  else ["table " ++ tableName ++ " " ++ fieldName ++ ": " ++ "\n".intercalate errs]

/-- Read the commands of a table, and report what cannot be read. -/
def wellForm (tableName : String) (cfg : RedisTableConfig) : RedisTableConfig × List String :=
  let (resolved, resolvedErrs) := resolveCommandsStrict cfg.commands
  let (insert, insertErrs) := resolveOperation cfg.insert cfg.insertCommands
  let (update, updateErrs) := resolveOperation cfg.update cfg.updateCommands
  let (delete, deleteErrs) := resolveOperation cfg.delete cfg.deleteCommands
  let read := { cfg with
    resolvedCommands := resolved
    insertCommands := insert
    updateCommands := update
    deleteCommands := delete }
  let errs := validationErr tableName "commands" resolvedErrs ++
    validationErr tableName "insert.commands" insertErrs ++
    validationErr tableName "update.commands" updateErrs ++
    validationErr tableName "delete.commands" deleteErrs
  if read.hasNoCommands then
    ({ read with resolvedCommands := defaultCommands cfg.fullName }, errs)
  else (read, errs)

end RedisTableConfig

/-- The parts of the configuration that decide about commands. -/
structure RedisAppConfig where
  -- The tables in the order in which the source happens to go through them.
  tables : List (String × RedisTableConfig)
  snapshot : Option SnapshotConfig

def wellFormTableName (key : String) : String :=
  if '.' ∈ key.toList then key else "public." ++ key

variable (tables : List (String × RedisTableConfig))

/-- File a table under its full name, replacing one of that name. -/
def fileTable (item : String × RedisTableConfig) :
    List (String × RedisTableConfig) :=
  let newKey := wellFormTableName item.1
  let cfg := { item.2 with fullName := newKey }
  (tables.filter fun other => other.1 ≠ newKey) ++ [(newKey, cfg)]

/-- The tables under their full names. -/
def wellFormTableNames :
    List (String × RedisTableConfig) :=
  tables.foldl fileTable []

/-- The configuration being built, and what was found wrong. -/
structure RedisAppConfigBuilder where
  config : Option RedisAppConfig
  validationErr : List String

/-- A Latin-1, Greek or Cyrillic letter in uppercase, or one whose uppercase form is ASCII. -/
def upperChar (c : Char) : Char :=
  match [('ı', 'I'), ('ſ', 'S'), ('µ', 'Μ'), ('ÿ', 'Ÿ'), ('ς', 'Σ')].lookup c with
  | some upper => upper
  | none =>
    if 'à' ≤ c ∧ c ≤ 'þ' ∧ c ≠ '÷' ∨ 'α' ≤ c ∧ c ≤ 'ω' ∨ 'а' ≤ c ∧ c ≤ 'я' then
      .ofNat (c.toNat - 32)
    else if 'ѐ' ≤ c ∧ c ≤ 'џ' then .ofNat (c.toNat - 80)
    else c.toUpper

/-- A text in uppercase. Letters of other alphabets are kept; no command has one. -/
def toUpper (text : String) : String := String.ofList (text.toList.map upperChar)

def isSupportedRedisCommand (cmd : String) : Bool :=
  cmd ∈ ["SET", "SETEX", "MSET", "INCR", "DECR", "INCRBY", "DECRBY", "APPEND", "DEL", "EXPIRE",
    "HSET", "HINCRBY", "HDEL", "SADD", "SREM", "ZADD", "ZINCRBY", "ZREM", "XADD", "XDEL",
    "PUBLISH"]

variable (tableName : String)

def validateCommand : List String → List String
  | [] => ["table " ++ tableName ++ ": empty command found"]
  | name :: args =>
    let cmdName := toUpper name
    (if isSupportedRedisCommand cmdName then []
      else ["table " ++ tableName ++ ": unsupported Redis command " ++ cmdName]) ++
    (if args.isEmpty then
      ["table " ++ tableName ++ ": command " ++ cmdName ++ " must have at least a key pattern"]
      else [])

def validateOperands (cond : ConditionConfig) : List String :=
  let start := "table " ++ tableName ++ ": condition with operator " ++ cond.op.text
  match cond.op with
  | .equal | .notEqual | .less | .greater | .lessEq | .greaterEq | .isDistinctFrom =>
    if cond.value = "" then [start ++ " must have a value"] else []
  | .isIn | .notIn => if cond.values.isEmpty then [start ++ " must have values array"] else []
  | .isNull | .isNotNull =>
    if cond.value ≠ "" ∨ cond.values ≠ [] then [start ++ " must not have value or values"] else []
  | .other text =>
    if text = "" then ["table " ++ tableName ++ ": condition must have an operator"]
    else ["table " ++ tableName ++ ": unsupported condition operator " ++ text]

def validateCondition (cond : ConditionConfig) : List String :=
  (if cond.column = "" then ["table " ++ tableName ++ ": condition must have a column"] else []) ++
    validateOperands tableName cond

def validateGroup (group : RedisCommandWithCondition) : List String :=
  if group.commands.isEmpty then ["table " ++ tableName ++ ": command group is empty"]
  else group.commands.flatMap (validateCommand tableName) ++
    (group.condition.map (validateCondition tableName)).getD []

def validateCommands (groups : List RedisCommandWithCondition) : List String :=
  groups.flatMap (validateGroup tableName)

def RedisTableConfig.validate (cfg : RedisTableConfig) : List String :=
  (if '.' ∈ tableName.toList then [] else
    ["table " ++ tableName ++ " must follow Postgres naming conventions (schema.table)"]) ++
  (if cfg.hasNoCommands then ["table " ++ tableName ++
    " must have at least one of commands, insert, update, or delete defined"] else []) ++
  validateCommands tableName cfg.resolvedCommands ++
  validateCommands tableName cfg.insertCommands ++
  validateCommands tableName cfg.updateCommands ++
  validateCommands tableName cfg.deleteCommands

namespace RedisAppConfigBuilder

/-- Name the tables and read their commands. -/
def wellForm (rb : RedisAppConfigBuilder) : RedisAppConfigBuilder :=
  match rb.config with
  | none => rb
  | some config =>
    let read := (wellFormTableNames config.tables).map fun item => (item.1, item.2.wellForm item.1)
    { config := some { config with tables := read.map fun item => (item.1, item.2.1) }
      validationErr := read.flatMap fun item => item.2.2 }

/-- What is wrong with the configuration, nothing when it is accepted. -/
def validate (lib : TextLibrary) (rb : RedisAppConfigBuilder) : List String :=
  match rb.config with
  | none => ["config is nil"]
  | some config =>
    rb.validationErr ++ (config.tables.flatMap fun item => item.2.validate item.1) ++
      match config.snapshot with
      | none => []
      | some snapshot =>
        match snapshot.validate lib with
        | .ok _ => []
        | .error err => ["snapshot: " ++ err.text lib]

end RedisAppConfigBuilder

variable {raw : Raw} {label : String} {cmds : List Raw} {parsed : List (List String)} {index : Nat}

/-- A group that can be executed: it has commands, all with names. -/
def Executable (commands : List (List String)) : Prop :=
  commands ≠ [] ∧ ∀ cmd ∈ commands, cmd ≠ []

theorem stringsOf_eq {parts : List Raw} {texts : List String}
    (read : stringsOf label index parts = .ok texts) : parts = texts.map .str := by
  induction parts generalizing index texts with
  | nil =>
    cases read
    rfl
  | cons part rest ih =>
    cases part with
    | str text =>
      obtain ⟨others, later, same⟩ := bind_eq_ok.mp read
      cases same
      simp [ih later]
    | nil | list | strings | map | other => cases read

/-- A value that is read as one command with a name. -/
def Single (raw : Raw) (cmd : List String) : Prop :=
  cmd ≠ [] ∧ resolveSliceParts raw = some (cmd.map .str)

theorem parseCommandStringSlice_spec {parts : List String}
    (read : parseCommandStringSlice raw label = .ok parts) : Single raw parts := by
  simp only [parseCommandStringSlice] at read
  grind [Single, stringsOf_eq]

theorem parseCommandList_spec (read : parseCommandList index cmds = .ok parsed) :
    List.Forall₂ Single cmds parsed := by
  induction cmds generalizing index parsed with
  | nil =>
    cases read
    exact .nil
  | cons cmd rest ih =>
    simp only [parseCommandList] at read
    split at read
    · cases read
    · cases read
    · obtain ⟨others, later, same⟩ := bind_eq_ok.mp read
      cases same
      exact .cons (parseCommandStringSlice_spec ‹_›) (ih later)

/-- A value that is read as one command or as a list of them. -/
def Parsed (raw : Raw) (commands : List (List String)) : Prop :=
  (∃ cmd, Single raw cmd ∧ commands = [cmd]) ∨
    ∃ items, items ≠ [] ∧ raw = .list items ∧ List.Forall₂ Single items commands

theorem parsed_single
    (read : (parseCommandStringSlice raw label).map (fun parts => [parts]) = .ok parsed) :
    Parsed raw parsed := by
  cases first : parseCommandStringSlice raw label with
  | error err => simp [first, Except.map] at read
  | ok parts =>
    simp only [first, Except.map, Except.ok.injEq] at read
    exact .inl ⟨parts, parseCommandStringSlice_spec first, read.symm⟩

theorem parsed_of_parseCommands (read : parseCommands raw = .ok parsed) : Parsed raw parsed := by
  fun_cases parseCommands raw <;> simp only [parseCommands] at read
  · cases read
  · cases read
  · exact parsed_single read
  · exact .inr ⟨_, ‹_›, rfl, parseCommandList_spec read⟩
  · exact parsed_single read

theorem Parsed.ne_nil (read : Parsed raw parsed) : parsed ≠ [] := by
  rintro rfl
  obtain ⟨cmd, single, read⟩ | ⟨items, filled, -, each⟩ := read
  · cases read
  · exact filled (forall₂_nil_right_iff.mp each)

/-- The part of an element that holds its commands. -/
def body : Raw → Raw
  | .map fields =>
    if hasField fields "command" || hasField fields "condition" then
      (field fields "command").getD .nil
    else .map fields
  | raw => raw

/-- The condition of an element, which only a map can have. -/
def conditionOf : Raw → Option ConditionConfig
  | .map fields => resolveCondition fields
  | _ => none

theorem resolveCondition_of_absent {fields : List (String × Raw)}
    (absent : hasField fields "condition" = false) : resolveCondition fields = none := by
  grind [resolveCondition, hasField]

/-- An element without an error is its commands under its condition. -/
theorem resolveCommand_spec {result : Option RedisCommandWithCondition}
    (read : resolveCommand raw = .ok result) :
    ∃ commands, result = some ⟨commands, conditionOf raw⟩ ∧ Parsed (body raw) commands := by
  have plain {raw : Raw} (read : resolvePlain raw = .ok result) :
      ∃ commands, result = some ⟨commands, none⟩ ∧ Parsed raw commands := by
    grind [resolvePlain, parsed_of_parseCommands, Parsed.ne_nil]
  cases raw with
  | map fields =>
    simp only [resolveCommand, body, conditionOf] at read ⊢
    split at read
    · -- Only a map that has a command or a condition is read as conditional.
      grind [resolveConditional, parsed_of_parseCommands, Parsed.ne_nil]
    · grind [resolveCondition_of_absent]
  | nil | str | list | strings | other => exact plain read

theorem resolveCommandsStrict_spec (fine : (resolveCommandsStrict cmds).2 = []) :
    List.Forall₂ (fun cmd group => Parsed (body cmd) group.commands ∧
      group.condition = conditionOf cmd) cmds (resolveCommandsStrict cmds).1 := by
  induction cmds with
  | nil => exact .nil
  | cons cmd rest ih =>
    simp only [resolveCommandsStrict] at fine ⊢
    cases read : resolveCommand cmd with
    | error err => simp [read] at fine
    | ok result =>
      obtain ⟨commands, rfl, parsed⟩ := resolveCommand_spec read
      simp only [read] at fine ⊢
      exact .cons ⟨parsed, rfl⟩ (ih fine)

theorem resolveCommandsStrict_length (fine : (resolveCommandsStrict cmds).2 = []) :
    (resolveCommandsStrict cmds).1.length = cmds.length :=
  (resolveCommandsStrict_spec fine).length_eq.symm

/-- A value with the given parts: a list's, or a map's by their numbers. -/
def Spells : Raw → List Raw → Prop
  | .list items, parts => items = parts
  | .strings items, parts => items.map .str = parts
  | .map fields, parts => fields.length = parts.length ∧
      ∀ i < parts.length, field fields (toString i) = parts[i]?
  | _, _ => False

/-- A value with the given commands: one command's arguments, or several. -/
def Holds (raw : Raw) (commands : List (List String)) : Prop :=
  (∃ cmd, Spells raw (cmd.map .str) ∧ commands = [cmd]) ∨ ∃ items, raw = .list items ∧
      List.Forall₂ (fun item cmd => Spells item (cmd.map .str)) items commands

/-- The condition that is written in an element, unless it is nil. -/
def given : Raw → Option Raw
  | .map fields => if hasField fields "condition" then field fields "condition" else none
  | _ => none

/-- A map without keys other than the given ones. -/
def Only (keys : List String) (fields : List (String × Raw)) : Prop :=
  ∀ item ∈ fields, item.1 ∈ keys

/-- A map with a command or a condition has nothing beside them. -/
def Named : Raw → Prop
  | .map fields => hasField fields "command" ∨ hasField fields "condition" →
      Only ["command", "condition"] fields
  | _ => True

/-- A condition that says all a value says; an absent text is empty. -/
def ReadsAs (raw : Raw) (cond : ConditionConfig) : Prop :=
  ∃ fields, raw = .map fields ∧ Only ["op", "column", "value", "values"] fields ∧
    (field fields "op").getD (.str "") = .str cond.op.text ∧
    (field fields "column").getD (.str "") = .str cond.column ∧
    (field fields "value").getD (.str "") = .str cond.value ∧
    ∃ parts, Spells ((field fields "values").getD (.list [])) parts ∧
      cond.values = parts.map Raw.sprint

/-- A group with all of an element's commands and its condition, if any. -/
def Represents (cmd : Raw) (group : RedisCommandWithCondition) : Prop :=
  Holds (body cmd) group.commands ∧ Named cmd ∧ (group.condition.isSome ↔ (given cmd).isSome) ∧
    ∀ raw ∈ given cmd, ∀ cond ∈ group.condition, ReadsAs raw cond

/-- A map that stands for a list is numbered from zero without a gap. -/
def Dense (raw : Raw) : Prop := ∀ fields, raw = .map fields → ∃ parts, Spells raw parts

/-- An element without gaps or unknown keys, with a sayable condition. -/
def Legible (cmd : Raw) : Prop :=
  Dense (body cmd) ∧ Named cmd ∧ (∀ items, body cmd = .list items → ∀ item ∈ items, Dense item) ∧
    ∀ raw ∈ given cmd, ∃ cond, ReadsAs raw cond

variable {fields : List (String × Raw)} {parts : List Raw}

theorem numbered_eq {start : Nat}
    (read : ∀ i < parts.length, field fields (toString (start + i)) = parts[i]?) :
    numbered fields parts.length start = parts := by
  induction parts generalizing start with
  | nil => rfl
  | cons part rest ih =>
    have first : field fields (toString start) = some part := by simpa using read 0 (by simp)
    have later := @ih (start + 1) fun i inside => by
      simpa [Nat.add_assoc, Nat.add_comm 1] using read (i + 1) (by simpa using inside)
    rw [length_cons, numbered, first]
    exact congrArg (part :: ·) later

theorem Spells.resolved (spells : Spells raw parts) : resolveSliceParts raw = some parts := by
  cases raw with
  | map fields =>
    rw [resolveSliceParts, spells.1]
    exact congrArg some (numbered_eq (by simpa using spells.2))
  | list | strings => exact congrArg some spells
  | nil | str | other => exact spells.elim

theorem Dense.spells (dense : Dense raw) (found : resolveSliceParts raw = some parts) :
    Spells raw parts := by
  cases raw with
  | map fields =>
    obtain ⟨whole, spells⟩ := dense fields rfl
    exact Option.some.inj ((Spells.resolved spells).symm.trans found) ▸ spells
  | list | strings => exact Option.some.inj found
  | nil | str | other => cases found

theorem ofText_text (text : String) : (ConditionOperator.ofText text).text = text := by
  rw [ConditionOperator.ofText]
  cases found : List.find? _ _ with
  | none => rfl
  | some op => simpa using find?_some found

/-- A condition that can be read is read as it is written. -/
theorem ReadsAs.resolved {cond : ConditionConfig} (reads : ReadsAs raw cond)
    (own : field fields "condition" = some raw) :
    ∃ cond, resolveCondition fields = some cond ∧ ReadsAs raw cond := by
  obtain ⟨inner, rfl, only, op, column, value, parts, spells, -⟩ := reads
  have text {key text : String} (found : (field inner key).getD (.str "") = .str text) :
      textField inner key = text := by
    rw [textField]
    cases present : field inner key <;> simp_all
  refine ⟨_, by rw [resolveCondition, own], inner, rfl, only, ?_, ?_, ?_, parts, spells, ?_⟩
  · rw [ofText_text, text op, op]
  · rw [text column, column]
  · rw [text value, value]
  · cases found : field inner "values" with
    | none => simp [← show [] = parts by simpa [found, Spells] using spells]
    | some raw =>
      have whole := @Spells.resolved raw parts (by simpa [found] using spells)
      simp [resolveStringSlice, whole]

/-- An element that can be read is read whole. -/
theorem Legible.represents {cmd : Raw} {group : RedisCommandWithCondition} (legible : Legible cmd)
    (parsed : Parsed (body cmd) group.commands) (same : group.condition = conditionOf cmd) :
    Represents cmd group := by
  obtain ⟨dense, named, items, readable⟩ := legible
  refine ⟨?_, named, ?_⟩
  · obtain ⟨cmd, single, only⟩ | ⟨all, -, whole, each⟩ := parsed
    · exact .inl ⟨cmd, dense.spells single.2, only⟩
    · refine .inr ⟨all, whole, ((forall₂_and_left _ _).mpr ⟨items all whole, each⟩).imp ?_⟩
      exact fun item cmd ⟨dense, single⟩ => dense.spells single.2
  · rw [same]
    cases cmd with
    | map fields =>
      simp only [conditionOf, given] at readable ⊢
      split at readable
      · obtain ⟨raw, own⟩ : ∃ raw, field fields "condition" = some raw := by grind [hasField]
        obtain ⟨_, reads⟩ := readable raw own
        obtain ⟨cond, resolved, reads⟩ := reads.resolved own
        grind
      · grind [resolveCondition_of_absent]
    | nil | str | list | strings | other => simp [conditionOf, given]

/-- An element of which nothing is lost can be read. -/
theorem Represents.legible {cmd : Raw} {group : RedisCommandWithCondition}
    (represents : Represents cmd group) : Legible cmd := by
  obtain ⟨holds, named, present, reads⟩ := represents
  refine ⟨fun fields isMap => ?_, named, fun items whole => ?_, fun raw own => ?_⟩
  · obtain ⟨cmd, spells, -⟩ | ⟨items, whole, -⟩ := holds
    · exact ⟨_, spells⟩
    · cases whole.symm.trans isMap
  · obtain ⟨cmd, spells, -⟩ | ⟨all, same, each⟩ := holds
    · -- The parts of one command are texts and no maps.
      rw [whole] at spells
      cases (show items = cmd.map .str from spells)
      simp [Dense]
    · cases whole.symm.trans same
      have dense {item : Raw} {parts} (spells : Spells item parts) : Dense item :=
        fun _ _ => ⟨parts, spells⟩
      exact ((forall₂_and_left _ _).mp (each.imp fun _ _ own => ⟨dense own, own⟩)).1
  · obtain ⟨cond, isCond⟩ := Option.isSome_iff_exists.mp
      (present.mpr (Option.isSome_iff_exists.mpr ⟨raw, own⟩))
    exact ⟨cond, reads raw own cond isCond⟩

end PgWalk.Redis
