import PgWalk.Sqs.QueueMapper

/-! What an operation inherits from the configuration of its table, and when its rows are told. -/

namespace PgWalk.Sqs

open SQSQueueMapper Option

/-- The own value where there is one, else the inherited one. -/
def orInherited (own inherited : String) : String := if own = "" then inherited else own

/-- An operation's configured queue, the table's own as a last resort. -/
def configuredName (tableName : String) (defaultConfig : SQSQueueConfig)
    (op : Option SQSQueueConfig) : String :=
  orInherited (op.elim "" SQSQueueConfig.name)
    (orInherited defaultConfig.name (replaceDots tableName))

/-- The group pattern a table's operation is configured for. -/
def configuredGroupID (defaultConfig : SQSQueueConfig) (op : Option SQSQueueConfig) : String :=
  orInherited (op.elim "" SQSQueueConfig.groupID) defaultConfig.groupID

/-- Whether an operation is configured not to be sent. -/
def skipped (op : Option SQSQueueConfig) : Bool :=
  op.elim false fun config => equalFold config.name skipQueue

/-- What routing has to do for every table. -/
structure RoutesAsConfigured (tables : List (String × SQSTableConfig))
    (queueMapper : SQSQueueMapper) : Prop where
  routed : ∀ tableName config kind op, tables.lookup tableName = some ⟨some config⟩ →
    config.forOp kind = some op → skipped op = false → ∃ qc,
      queueMapper.tableQueueMap.lookup (makeQueueConfigKey tableName kind) = some qc ∧
      qc.queueName = configuredName tableName config.toSQSQueueConfig op ∧
      qc.groupIDPattern = configuredGroupID config.toSQSQueueConfig op
  told : ∀ tableName kind other qc otherQc, kind ≠ other →
    queueMapper.tableQueueMap.lookup (makeQueueConfigKey tableName kind) = some qc →
    queueMapper.tableQueueMap.lookup (makeQueueConfigKey tableName other) = some otherQc →
    qc.skip = false → otherQc.skip = false → qc.queueName = otherQc.queueName →
    qc.needsOpInJSON = true ∧ otherQc.needsOpInJSON = true

/--
What the configuration of a table has to be like, since a section makes its operation anonymous and
without a name gets the one derived from the table.
-/
structure Plain (tableName : String) (config : SQSTableQueueConfig) : Prop where
  named : ∀ kind op, config.forOp kind = some (some op) → op.name = "" →
    config.name = "" ∨ config.name = replaceDots tableName
  alone : ∀ kind other op otherOp, kind ≠ other → config.forOp kind = some (some op) →
    config.forOp other = some otherOp → skipped (some op) = false → skipped otherOp = false →
    configuredName tableName config.toSQSQueueConfig (some op) ≠
      configuredName tableName config.toSQSQueueConfig otherOp

section NewQueueConfig

variable (opKind : OpKind) (tableName : String) (defaultConfig : SQSQueueConfig)

theorem newQueueConfig_groupID (op : Option SQSQueueConfig) :
    (newQueueConfig opKind tableName defaultConfig op).2.groupIDPattern =
      configuredGroupID defaultConfig op := by
  -- The name is filled in afterwards, leaving the pattern alone.
  cases op with
  | none =>
    simp only [newQueueConfig, configuredGroupID, orInherited, elim_none]
    split <;> rfl
  | some op =>
    simp only [newQueueConfig, configuredGroupID, orInherited, elim_some]
    cases equalFold op.name skipQueue <;> by_cases group : op.groupID = "" <;>
      by_cases named : op.name = "" <;> simp [group, named]

theorem newQueueConfig_needsOpInJSON (op : Option SQSQueueConfig) :
    (newQueueConfig opKind tableName defaultConfig op).2.needsOpInJSON = op.isNone := by
  cases op with
  | none =>
    simp only [newQueueConfig]
    split <;> rfl
  | some op =>
    simp only [newQueueConfig]
    cases equalFold op.name skipQueue <;> by_cases group : op.groupID = "" <;>
      by_cases named : op.name = "" <;> simp [group, named]

theorem newQueueConfig_name_none :
    (newQueueConfig opKind tableName defaultConfig none).2.queueName =
      configuredName tableName defaultConfig none := by
  by_cases named : defaultConfig.name = ""
  · simp [newQueueConfig, configuredName, orInherited, named]
  · simp [newQueueConfig, configuredName, orInherited, named]

variable {op : SQSQueueConfig}

theorem newQueueConfig_name_some (sent : skipped (some op) = false) :
    (newQueueConfig opKind tableName defaultConfig (some op)).2.queueName =
      orInherited op.name (replaceDots tableName) := by
  have word : equalFold op.name skipQueue = false := sent
  simp only [newQueueConfig, word, if_true, orInherited]
  by_cases named : op.name = "" <;> by_cases group : op.groupID = "" <;> simp [named, group]

theorem newQueueConfig_name_iff (sent : skipped (some op) = false) :
    (newQueueConfig opKind tableName defaultConfig (some op)).2.queueName =
        configuredName tableName defaultConfig (some op) ↔
      (op.name = "" → defaultConfig.name = "" ∨ defaultConfig.name = replaceDots tableName) := by
  -- A section without a name gets the name of the table.
  rw [newQueueConfig_name_some opKind tableName defaultConfig sent]
  simp only [configuredName, orInherited, elim_some]
  by_cases named : op.name = ""
  · by_cases default : defaultConfig.name = ""
    · simp [named, default]
    · simp [named, default, eq_comm]
  · simp [named]

end NewQueueConfig

theorem not_skipped_of_unnamed {op : SQSQueueConfig} (unnamed : op.name = "") :
    skipped (some op) = false := by
  show equalFold op.name skipQueue = false
  rw [unnamed]
  decide

variable {tables : List (String × SQSTableConfig)} {tableName : String} {kind : OpKind}

theorem addTables_ok (configured : ∀ table ∈ tables, ∃ config, table.2.queueConfig = some config)
    (queueMapper : SQSQueueMapper) : ∃ next, queueMapper.addTables tables = .ok next := by
  induction tables generalizing queueMapper with
  | nil => exact ⟨queueMapper, rfl⟩
  | cons table rest ih =>
    obtain ⟨config, own⟩ := configured table List.mem_cons_self
    have added : ∃ first, queueMapper.addTable table.1 table.2 = .ok first := by
      rw [addTable, own]
      exact ⟨_, rfl⟩
    obtain ⟨first, added⟩ := added
    obtain ⟨next, rest_added⟩ := ih (fun other member => configured other (.tail _ member)) first
    exact ⟨next, bind_eq_ok.mpr ⟨first, added, rest_added⟩⟩

theorem ownConfig_eq {config : SQSTableQueueConfig} {op : Option SQSQueueConfig}
    (found : tables.lookup tableName = some ⟨some config⟩) (own : config.forOp kind = some op) :
    ownConfig tables tableName kind =
      some (newQueueConfig kind tableName config.toSQSQueueConfig op).2 := by
  simp [ownConfig, queueOf, found, own]

theorem ownConfig_eq_some {qc : TableQueueConfig}
    (filed : ownConfig tables tableName kind = some qc) :
    ∃ config op, tables.lookup tableName = some ⟨some config⟩ ∧ config.forOp kind = some op ∧
      qc = (newQueueConfig kind tableName config.toSQSQueueConfig op).2 := by
  obtain ⟨⟨configured⟩, found, inTable⟩ := bind_eq_some_iff.mp filed
  obtain ⟨config, same, inConfig⟩ := bind_eq_some_iff.mp inTable
  obtain ⟨op, own, made⟩ := bind_eq_some_iff.mp inConfig
  subst same
  exact ⟨config, op, found, own, (some.inj made).symm⟩

theorem newQueueConfig_skip_eq (kind : OpKind) (tableName : String)
    (defaultConfig : SQSQueueConfig) (op : Option SQSQueueConfig) :
    (newQueueConfig kind tableName defaultConfig op).2.skip = skipped op := by
  have flag := newQueueConfig_skip kind tableName defaultConfig op
  cases op with
  | none => simpa [skipped] using flag
  | some op =>
    simp only [some.injEq, exists_eq_left'] at flag
    exact Bool.eq_iff_iff.mpr flag

/--
Tables with queue configurations are filed, and every operation inherits what it leaves unset and
can be told from the others of its queue exactly when no section without a name stands below a
named queue and no operation with a section shares its queue.
-/
theorem routesAsConfigured_iff {tables : List (String × SQSTableConfig)}
    (distinct : Dict.Distinct tables)
    (configured : ∀ table ∈ tables, ∃ config, table.2.queueConfig = some config) :
    ∃ queueMapper, newSQSQueueMapper tables = .ok queueMapper ∧
      (RoutesAsConfigured tables queueMapper ↔
        ∀ tableName config, tables.lookup tableName = some ⟨some config⟩ →
          Plain tableName config) := by
  -- Below a plain configuration each operation gets its own name.
  obtain ⟨queueMapper, built⟩ := addTables_ok configured ⟨[]⟩
  have filed : ∀ tableName kind,
      queueMapper.tableQueueMap.lookup (makeQueueConfigKey tableName kind) =
        ownConfig tables tableName kind := by
    intro tableName kind
    rw [addTables_lookup distinct built]
    exact or_none
  refine ⟨queueMapper, built, ?_, ?_⟩
  · rintro ⟨routed, told⟩ tableName config found
    refine ⟨?_, ?_⟩
    · -- A section without a name is sent, so it is routed as configured.
      intro kind op own unnamed
      have sent := not_skipped_of_unnamed unnamed
      obtain ⟨qc, filedHere, named, -⟩ := routed _ _ _ _ found own sent
      rw [filed, ownConfig_eq found own] at filedHere
      rw [← some.inj filedHere] at named
      exact (newQueueConfig_name_iff kind tableName _ sent).mp named unnamed
    · -- Were the queues the same, the operation with a section would have to be told.
      intro kind other op otherOp differ own otherOwn sent otherSent same
      obtain ⟨qc, filedHere, named, -⟩ := routed _ _ _ _ found own sent
      obtain ⟨otherQc, otherFiled, otherNamed, -⟩ := routed _ _ _ _ found otherOwn otherSent
      have here := filedHere
      have there := otherFiled
      rw [filed, ownConfig_eq found own] at here
      rw [filed, ownConfig_eq found otherOwn] at there
      have made := some.inj here
      have otherMade := some.inj there
      have used : qc.skip = false := by rw [← made, newQueueConfig_skip_eq, sent]
      have otherUsed : otherQc.skip = false := by
        rw [← otherMade, newQueueConfig_skip_eq, otherSent]
      have needs := (told _ _ _ _ _ differ filedHere otherFiled used otherUsed
        (named.trans (same.trans otherNamed.symm))).1
      rw [← made, newQueueConfig_needsOpInJSON] at needs
      cases needs
  · intro plain
    have named : ∀ tableName config kind op, tables.lookup tableName = some ⟨some config⟩ →
        config.forOp kind = some op → skipped op = false →
        (newQueueConfig kind tableName config.toSQSQueueConfig op).2.queueName =
          configuredName tableName config.toSQSQueueConfig op := by
      intro tableName config kind op found own sent
      cases op with
      | none => exact newQueueConfig_name_none _ _ _
      | some op =>
        exact (newQueueConfig_name_iff _ _ _ sent).mpr ((plain _ _ found).named _ _ own)
    refine ⟨?_, ?_⟩
    · intro tableName config kind op found own sent
      refine ⟨_, (filed _ _).trans (ownConfig_eq found own), named _ _ _ _ found own sent, ?_⟩
      exact newQueueConfig_groupID _ _ _ _
    · -- Two queues of one table come from one configuration.
      intro tableName kind other qc otherQc differ here there used otherUsed same
      obtain ⟨config, op, found, own, rfl⟩ := ownConfig_eq_some ((filed _ _).symm.trans here)
      obtain ⟨_, otherOp, again, otherOwn, rfl⟩ := ownConfig_eq_some ((filed _ _).symm.trans there)
      obtain rfl : config = _ := by
        have both := found.symm.trans again
        simpa using both
      rw [newQueueConfig_skip_eq] at used otherUsed
      rw [named _ _ _ _ found own used, named _ _ _ _ found otherOwn otherUsed] at same
      rw [newQueueConfig_needsOpInJSON, newQueueConfig_needsOpInJSON]
      have alone := (plain _ _ found).alone
      -- Neither of two operations that share a queue has a section.
      cases op with
      | some op => exact absurd same (alone _ _ _ _ differ own otherOwn used otherUsed)
      | none =>
        cases otherOp with
        | some otherOp =>
          exact absurd same.symm (alone _ _ _ _ differ.symm otherOwn own otherUsed used)
        | none => exact ⟨rfl, rfl⟩

namespace Sample

/-- A table with a named queue, and a section for the deletes. -/
def sectioned (delete : SQSQueueConfig) : List (String × SQSTableConfig) :=
  [("public.users", ⟨some ⟨⟨"users", "", "pk"⟩, none, none, some delete⟩⟩)]

end Sample

/-- Deletes with a queue of their own are routed to it. -/
theorem routesAsConfigured_iff_deleted :
    ∃ queueMapper, newSQSQueueMapper (Sample.sectioned ⟨"deleted", "", ""⟩) = .ok queueMapper ∧
      RoutesAsConfigured (Sample.sectioned ⟨"deleted", "", ""⟩) queueMapper := by
  -- Only the deletes have a section, and it has a name.
  have distinct : Dict.Distinct (Sample.sectioned ⟨"deleted", "", ""⟩) := List.nodup_singleton _
  have configured : ∀ table ∈ Sample.sectioned ⟨"deleted", "", ""⟩,
      ∃ config, table.2.queueConfig = some config := by
    intro table member
    rw [List.mem_singleton.mp member]
    exact ⟨_, rfl⟩
  obtain ⟨queueMapper, built, holds⟩ := routesAsConfigured_iff distinct configured
  refine ⟨queueMapper, built, holds.mpr ?_⟩
  intro tableName config found
  obtain ⟨rfl, same⟩ := Dict.lookup_singleton found
  cases same
  refine ⟨?_, ?_⟩
  · intro kind op own unnamed
    cases kind <;> cases own
    exact absurd unnamed (by decide)
  · intro kind other op otherOp differ own otherOwn sent otherSent
    cases kind <;> cases own
    cases other <;> cases otherOwn
    · decide
    · decide
    · exact absurd rfl differ

/--
Deletes with a group of their own and no name leave the queue of their table, and deletes that are
sent to that queue by name cannot be told from the other rows there.
-/
theorem routing_ignores_inheritance :
    (∃ queueMapper, newSQSQueueMapper (Sample.sectioned ⟨"", "", "other"⟩) =
        .ok queueMapper ∧
      (queueMapper.tableQueueMap.lookup (makeQueueConfigKey "public.users" .delete)).map
        TableQueueConfig.queueName = some "public_users" ∧
      configuredName "public.users" ⟨"users", "", "pk"⟩ (some ⟨"", "", "other"⟩) = "users") ∧
    ∃ queueMapper, newSQSQueueMapper (Sample.sectioned ⟨"users", "", ""⟩) = .ok queueMapper ∧
      (queueMapper.tableQueueMap.lookup (makeQueueConfigKey "public.users" .delete)).map
        (fun qc => (qc.queueName, qc.needsOpInJSON)) = some ("users", false) ∧
      (queueMapper.tableQueueMap.lookup (makeQueueConfigKey "public.users" .insert)).map
        (fun qc => (qc.queueName, qc.needsOpInJSON)) = some ("users", true) :=
  ⟨⟨_, rfl, by decide, by decide⟩, _, rfl, by decide, by decide⟩

end PgWalk.Sqs
