import PgWalk.Lib.Dict
import PgWalk.Redis.Command

/-! The queues of SQS: which queue a row of a table goes to, and the identifiers it is sent with. -/

namespace PgWalk.Sqs

open List

variable {V F : Type}

/-- What the SQS writer uses of libraries, beyond the Redis writer. -/
structure SqsLib (V F : Type) extends Redis.RedisLib V F where
  -- A value as it is printed into a group.
  sprint : V → String
  -- The standard encoding in base 64.
  encodeToString : String → String

structure SQSQueueConfig where
  name : String
  url : String
  groupID : String
deriving DecidableEq

/--
The configuration of the queue of a table, and those of its operations, for which the source has the
same type.
-/
structure SQSTableQueueConfig extends SQSQueueConfig where
  insert : Option SQSQueueConfig
  update : Option SQSQueueConfig
  delete : Option SQSQueueConfig
deriving DecidableEq

/-- A table's configuration, without what only the listener reads. -/
structure SQSTableConfig where
  queueConfig : Option SQSTableQueueConfig
deriving DecidableEq

structure TableQueueConfig where
  tableName : String
  queueName : String
  queueURL : String
  fifo : Bool
  skip : Bool
  needsOpInJSON : Bool
  groupIDPattern : String
deriving DecidableEq

/-- The queue name of operations that are not to be sent. -/
def skipQueue : String := "skip"

def opNumber : OpKind → Nat
  | .insert => 0
  | .update => 1
  | .delete => 2
  | .snapshotRead => 3

/-- The key under which the queue of an operation on a table is filed. -/
def makeQueueConfigKey (tableName : String) (opKind : OpKind) : String :=
  tableName ++ "-" ++ toString (opNumber opKind)

def replaceDots (text : String) : String :=
  String.ofList (text.toList.map fun c => if c = '.' then '_' else c)

/-- An operation's queue: its own configuration goes before the table's. -/
def newQueueConfig (opKind : OpKind) (tableName : String) (defaultConfig : SQSQueueConfig)
    (mergeConfig : Option SQSQueueConfig) : String × TableQueueConfig :=
  let qc : TableQueueConfig := {
    tableName := tableName
    queueName := defaultConfig.name
    queueURL := defaultConfig.url
    fifo := false
    skip := false
    needsOpInJSON := true
    groupIDPattern := defaultConfig.groupID }
  let qc :=
    match mergeConfig with
    | none => qc
    | some mergeConfig =>
      let qc := { qc with needsOpInJSON := false }
      let qc :=
        if equalFold mergeConfig.name skipQueue = false
        then { qc with queueName := mergeConfig.name, queueURL := mergeConfig.url }
        else { qc with skip := true, queueName := "", queueURL := "" }
      if mergeConfig.groupID ≠ "" then { qc with groupIDPattern := mergeConfig.groupID } else qc
  let qc :=
    if qc.queueName = "" ∧ qc.skip = false
    then { qc with queueName := replaceDots qc.tableName } else qc
  (makeQueueConfigKey tableName opKind, qc)

namespace TableQueueConfig

/-- The characters SQS allows in an identifier, at most 128. -/
def wellFormAWSID (awsID : String) : String :=
  String.ofList ((awsID.toList.filter fun c => 33 ≤ c.toNat ∧ c.toNat ≤ 126).take 128)

variable (lib : SqsLib V F) (qc : TableQueueConfig) (entry : WriteEntry V)

/-- The identifier by which a FIFO queue tells a message sent again. -/
def getDeduplicationID
    (xid : Nat) : Option String :=
  if qc.fifo = false then none
  else
    let dedupID := lib.encodeToString (entry.table.fullName ++ ":" ++ entry.pk ++ ":" ++
      toString (opNumber entry.kind) ++ ":" ++ toString xid)
    some (wellFormAWSID (" " ++ dedupID))

/--
Replace each macro of a pattern, from a dollar sign and a brace to the next closing brace, with what
has been read behind the start of one.
-/
def replaceMacros (value : String → String) : Option (List Char) → List Char → List Char
  | none, '$' :: '\x7b' :: rest => replaceMacros value (some []) rest
  | none, c :: rest => c :: replaceMacros value none rest
  | none, [] => []
  | some [], '\x7d' :: rest => '$' :: '\x7b' :: '\x7d' :: replaceMacros value none rest
  | some (first :: read), '\x7d' :: rest =>
    (value (String.ofList (first :: read))).toList ++ replaceMacros value none rest
  | some read, c :: rest => replaceMacros value (some (read ++ [c])) rest
  | some read, [] => '$' :: '\x7b' :: read

/-- The value of a macro in a row, given the tuple of the row. -/
def macroValue (om : OrderedMap V) (xid : Nat)
    (name : String) : String :=
  if name = "%schema%" then entry.table.schema
  else if name = "%table%" then entry.table.name
  else if name = "%xid%" then toString xid
  else
    match om.get name with
    | some none => ""
    | some (some value) => wellFormAWSID (lib.sprint value)
    | none => wellFormAWSID ("$\x7b" ++ name ++ "\x7d")

/-- The group of a message, whose messages SQS keeps in order. -/
def getMessageGroupID
    (om : OrderedMap V) (xid : Nat) : Option String :=
  if qc.groupIDPattern = "" then none
  else some (String.ofList
    (replaceMacros (macroValue lib entry om xid) none qc.groupIDPattern.toList))

/-- Store what SQS says about a queue. -/
def update (queueURL : String) (fifo : Bool) : TableQueueConfig :=
  { qc with queueURL := queueURL, fifo := fifo }

end TableQueueConfig

/-- The queues of all operations on all tables, by their keys. -/
structure SQSQueueMapper where
  tableQueueMap : List (String × TableQueueConfig)
deriving DecidableEq

namespace SQSQueueMapper

variable (queueMapper : SQSQueueMapper)

def store (keyed : String × TableQueueConfig) : SQSQueueMapper :=
  ⟨Dict.set keyed.1 keyed.2 queueMapper.tableQueueMap⟩

/-- File a table's queues, for which it must have a configuration. -/
def addTable (tableName : String) (tableConfig : SQSTableConfig) :
    Except Fault SQSQueueMapper :=
  match tableConfig.queueConfig with
  | none => .error (.panic "nil pointer dereference")
  | some queueConfig =>
    let insertConfig := newQueueConfig .insert tableName queueConfig.toSQSQueueConfig
      queueConfig.insert
    let updateConfig := newQueueConfig .update tableName queueConfig.toSQSQueueConfig
      queueConfig.update
    let deleteConfig := newQueueConfig .delete tableName queueConfig.toSQSQueueConfig
      queueConfig.delete
    .ok (((queueMapper.store insertConfig).store updateConfig).store deleteConfig)

/-- File the queues of tables one after the other. -/
def addTables (queueMapper : SQSQueueMapper) :
    List (String × SQSTableConfig) → Except Fault SQSQueueMapper
  | [] => .ok queueMapper
  | (tableName, tableConfig) :: rest => do
    let queueMapper ← queueMapper.addTable tableName tableConfig
    addTables queueMapper rest

/-- The queues of configured tables, in the order of the visit. -/
def newSQSQueueMapper (tableConfigMap : List (String × SQSTableConfig)) :
    Except Fault SQSQueueMapper :=
  addTables ⟨[]⟩ tableConfigMap

def getQueueConfig (entry : WriteEntry V) :
    Option TableQueueConfig :=
  queueMapper.tableQueueMap.lookup (makeQueueConfigKey entry.table.fullName entry.kind)

/-- Ask SQS about every queue, which is created where it is missing. -/
def ping (readOrCreateSQSQueueURL : String → Except Fault (String × Bool))
    (queueMapper : SQSQueueMapper) : Except Fault SQSQueueMapper := do
  let updated ← queueMapper.tableQueueMap.mapM fun keyed => do
    let answer ← readOrCreateSQSQueueURL keyed.2.queueName
    return (keyed.1, keyed.2.update answer.1 answer.2)
  return ⟨updated⟩

end SQSQueueMapper

/-- What a table's configuration says of an operation with a queue. -/
def SQSTableQueueConfig.forOp (config : SQSTableQueueConfig) :
    OpKind → Option (Option SQSQueueConfig)
  | .insert => some config.insert
  | .update => some config.update
  | .delete => some config.delete
  -- Rows of a snapshot have no queue.
  | .snapshotRead => none

/-- The queue that the configuration of a table asks for. -/
def queueOf (tableName : String) (tableConfig : SQSTableConfig) (opKind : OpKind) :
    Option TableQueueConfig := do
  let config ← tableConfig.queueConfig
  let mergeConfig ← config.forOp opKind
  return (newQueueConfig opKind tableName config.toSQSQueueConfig mergeConfig).2

variable (tableConfigMap : List (String × SQSTableConfig))

/-- The queue that the configuration of all tables asks for. -/
def ownConfig (tableName : String) (opKind : OpKind) : Option TableQueueConfig := do
  let tableConfig ← tableConfigMap.lookup tableName
  queueOf tableName tableConfig opKind

/-- Whether the operation of a row is configured not to be sent. -/
def skips (entry : WriteEntry V) : Bool :=
  match (tableConfigMap.lookup entry.table.fullName).bind SQSTableConfig.queueConfig with
  | none => false
  | some config =>
    match config.forOp entry.kind with
    | some (some op) => equalFold op.name skipQueue
    | _ => false

theorem makeQueueConfigKey_inj {tableName other : String} {opKind kind : OpKind} :
    makeQueueConfigKey tableName opKind = makeQueueConfigKey other kind ↔
      tableName = other ∧ opKind = kind := by
  -- Both ends have two characters, so they are the same.
  constructor
  · intro same
    have texts := congrArg String.toList same
    simp only [makeQueueConfigKey, String.toList_append, append_assoc] at texts
    have ends : ("-".toList ++ (toString (opNumber opKind)).toList).length =
        ("-".toList ++ (toString (opNumber kind)).toList).length := by
      cases opKind <;> cases kind <;> decide
    obtain ⟨names, numbers⟩ := append_inj' texts ends
    refine ⟨String.toList_injective names, ?_⟩
    cases opKind <;> cases kind <;> first | rfl | exact absurd numbers (by decide)
  · rintro ⟨rfl, rfl⟩
    rfl

theorem newQueueConfig_skip (opKind : OpKind) (tableName : String)
    (defaultConfig : SQSQueueConfig) (mergeConfig : Option SQSQueueConfig) :
    (newQueueConfig opKind tableName defaultConfig mergeConfig).2.skip = true ↔
      ∃ op, mergeConfig = some op ∧ equalFold op.name skipQueue = true := by
  -- Neither the group nor the name filled in touches the flag.
  cases mergeConfig with
  | none =>
    simp only [newQueueConfig]
    split <;> simp
  | some op =>
    simp only [newQueueConfig, Option.some.injEq, exists_eq_left']
    cases word : equalFold op.name skipQueue <;> by_cases group : op.groupID = "" <;>
      by_cases named : op.name = "" <;> simp [group, named]

namespace SQSQueueMapper

theorem store_lookup (queueMapper : SQSQueueMapper) (opKind kind : OpKind) (tableName name : String)
    (qc : TableQueueConfig) :
    (queueMapper.store (makeQueueConfigKey tableName opKind, qc)).tableQueueMap.lookup
        (makeQueueConfigKey name kind) =
      if name = tableName ∧ kind = opKind then some qc
      else queueMapper.tableQueueMap.lookup (makeQueueConfigKey name kind) := by
  unfold store
  simp [Dict.lookup_set, makeQueueConfigKey_inj]

variable {next queueMapper : SQSQueueMapper} {tables : List (String × SQSTableConfig)}

/-- Filing a table changes the queues of that table, and no others. -/
theorem addTable_lookup {tableName : String} {tableConfig : SQSTableConfig}
    (added : queueMapper.addTable tableName tableConfig = .ok next) (name : String)
    (kind : OpKind) : next.tableQueueMap.lookup (makeQueueConfigKey name kind) =
      (if name = tableName then queueOf name tableConfig kind else none).or
        (queueMapper.tableQueueMap.lookup (makeQueueConfigKey name kind)) := by
  -- The three keys of the table are set one after the other.
  unfold addTable at added
  cases configured : tableConfig.queueConfig with
  | none =>
    rw [configured] at added
    cases added
  | some config =>
    rw [configured] at added
    cases added
    have keyed : ∀ opKind mergeConfig, newQueueConfig opKind tableName config.toSQSQueueConfig
        mergeConfig = (makeQueueConfigKey tableName opKind,
          (newQueueConfig opKind tableName config.toSQSQueueConfig mergeConfig).2) :=
      fun _ _ => rfl
    rw [keyed .insert, keyed .update, keyed .delete, store_lookup, store_lookup, store_lookup]
    by_cases same : name = tableName
    · subst same
      cases kind <;> simp [queueOf, configured, SQSTableQueueConfig.forOp]
    · simp [same]

/-- Tables with distinct names get the queues they ask for. -/
theorem addTables_lookup (distinct : Dict.Distinct tables)
    (added : queueMapper.addTables tables = .ok next) (name : String) (kind : OpKind) :
    next.tableQueueMap.lookup (makeQueueConfigKey name kind) = (ownConfig tables name kind).or
        (queueMapper.tableQueueMap.lookup (makeQueueConfigKey name kind)) := by
  induction tables generalizing queueMapper with
  | nil =>
    cases added
    rfl
  | cons table rest ih =>
    obtain ⟨tableName, tableConfig⟩ := table
    obtain ⟨fresh, others⟩ := nodup_cons.mp distinct
    obtain ⟨first, here, later⟩ := bind_eq_ok.mp added
    rw [ih others later, addTable_lookup here, ownConfig, ownConfig, Dict.lookup_cons]
    by_cases same : name = tableName
    · -- The table has no second configuration that could come after the first.
      subst same
      have absent := Option.not_isSome_iff_eq_none.mp (mt Dict.mem_keys_iff.mpr fresh)
      simp [absent]
    · simp [same]

theorem getQueueConfig_new (distinct : Dict.Distinct tables)
    (built : newSQSQueueMapper tables = .ok queueMapper) (entry : WriteEntry V) :
    queueMapper.getQueueConfig entry = ownConfig tables entry.table.fullName entry.kind := by
  rw [getQueueConfig, addTables_lookup distinct built]
  simp

/-- Asking SQS changes nothing about a queue but what SQS knows of it. -/
theorem getQueueConfig_ping {readOrCreateSQSQueueURL : String → Except Fault (String × Bool)}
    (pinged : queueMapper.ping readOrCreateSQSQueueURL = .ok next) (entry : WriteEntry V) :
    ∃ refresh : TableQueueConfig → String × Bool,
      next.getQueueConfig entry = (queueMapper.getQueueConfig entry).map fun qc =>
        qc.update (refresh qc).1 (refresh qc).2 := by
  -- The queues are asked in turn, and each stays under its key.
  obtain ⟨updated, asked, same⟩ := bind_eq_ok.mp pinged
  cases same
  clear pinged
  obtain ⟨configs⟩ := queueMapper
  simp only [getQueueConfig] at asked ⊢
  generalize makeQueueConfigKey entry.table.fullName entry.kind = key
  refine ⟨fun qc => (readOrCreateSQSQueueURL qc.queueName).toOption.getD ("", false), ?_⟩
  induction configs generalizing updated with
  | nil =>
    cases asked
    rfl
  | cons keyed rest ih =>
    rw [mapM_cons] at asked
    obtain ⟨first, here, asked⟩ := bind_eq_ok.mp asked
    obtain ⟨answer, answered, here⟩ := bind_eq_ok.mp here
    obtain ⟨others, later, asked⟩ := bind_eq_ok.mp asked
    cases here
    cases asked
    rw [lookup_cons, lookup_cons, ih _ later]
    cases key == keyed.1 with
    | false => rfl
    | true => simp [answered, Except.toOption]

end SQSQueueMapper

end PgWalk.Sqs
