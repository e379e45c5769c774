import PgWalk.Listener.Basic

/-! How the tables of a publication are filed, and what reading the publication again changes. -/

namespace PgWalk

open PGBufferedListener List

variable {V : Type} (tables : List (String × PGTableWithConfig))

def filedUnder (name : String) : Option PGTableWithConfig :=
  (tables.find? fun item => item.1 = name).map Prod.snd

def configUnder (name : String) : Option TableConfig :=
  (filedUnder tables name).bind PGTableWithConfig.cfg

variable (filed : Option PGTableWithConfig)

/-- The entry of a name after a table of that name was read. -/
def refile (pubTable : Table) : Option PGTableWithConfig :=
  match filed with
  | none => some ⟨some pubTable, none⟩
  | some ⟨table, none⟩ => some ⟨table, none⟩
  | some ⟨table, some cfg⟩ =>
    some ⟨((mergeConfigAndPubTable pubTable cfg).toOption).or table, some cfg⟩

theorem refile_cfg (pubTable : Table) :
    (refile filed pubTable).bind PGTableWithConfig.cfg = filed.bind PGTableWithConfig.cfg := by
  rcases filed with _ | ⟨table, _ | cfg⟩ <;> rfl

theorem filedUnder_snoc (entry : PGTableWithConfig)
    {name : String} (unused : filedUnder tables name = none) (other : String) :
    filedUnder (tables ++ [(name, entry)]) other =
      if name = other then some entry else filedUnder tables other := by
  simp only [filedUnder, Option.map_eq_none_iff] at unused
  by_cases here : name = other
  · subst here
    simp [filedUnder, find?_append, unused]
  · simp [filedUnder, find?_append, here]

/-- Replacing an entry by name changes no other name. -/
theorem filedUnder_map (entry : PGTableWithConfig) (name other : String) :
    filedUnder (tables.map fun item => if item.1 = name then (item.1, entry) else item) other =
      if name = other then (filedUnder tables other).map fun _ => entry
      else filedUnder tables other := by
  -- The first item has the name looked up, or the search goes on.
  induction tables with
  | nil => simp [filedUnder]
  | cons item rest ih =>
    simp only [filedUnder, map_cons, find?_cons] at ih ⊢
    by_cases found : item.1 = other
    · by_cases here : name = other
      · simp [found, here]
      · simp [found, here, Ne.symm here]
    · by_cases renamed : item.1 = name
      · simpa [renamed, found, renamed ▸ found] using ih
      · simpa [renamed, found] using ih

section Filing

variable {tables filed : List (String × PGTableWithConfig)} {pubTable : Table}

theorem mergePubTable_of_none (unused : filedUnder tables pubTable.fullName = none) :
    mergePubTable tables pubTable =
      .ok (tables ++ [(pubTable.fullName, ⟨some pubTable, none⟩)]) := by
  simp only [filedUnder] at unused
  simp only [mergePubTable, unused]
  rfl

variable {table : Option Table}

theorem mergePubTable_of_plain (known : filedUnder tables pubTable.fullName = some ⟨table, none⟩) :
    mergePubTable tables pubTable = .ok tables := by
  simp only [filedUnder] at known
  simp only [mergePubTable, known]
  rfl

theorem mergePubTable_of_config {cfg : TableConfig}
    (known : filedUnder tables pubTable.fullName = some ⟨table, some cfg⟩) :
    mergePubTable tables pubTable = .ok filed ↔
      ∃ merged, mergeConfigAndPubTable pubTable cfg = .ok merged ∧
        tables.map (fun item => if item.1 = pubTable.fullName then
          (item.1, ⟨some merged, some cfg⟩) else item) = filed := by
  simp only [filedUnder] at known
  simp [mergePubTable, known, bind_eq_ok, wrapped_eq_ok, pure, Except.pure]

/-- What filing a table can do. -/
inductive FileCase (tables : List (String × PGTableWithConfig)) (pubTable : Table)
    (filed : List (String × PGTableWithConfig)) : Prop
  -- The name is new.
  | new (known : filedUnder tables pubTable.fullName = none)
    (same : filed = tables ++ [(pubTable.fullName, ⟨some pubTable, none⟩)])
  -- The name is filed without a configuration, and stays as it is.
  | plain (table : Option Table)
    (known : filedUnder tables pubTable.fullName = some ⟨table, none⟩) (same : filed = tables)
  -- The table is merged with the configuration of its name.
  | configured (table : Option Table) (cfg : TableConfig) (result : Table)
    (known : filedUnder tables pubTable.fullName = some ⟨table, some cfg⟩)
    (done : mergeConfigAndPubTable pubTable cfg = .ok result)
    (same : filed = tables.map fun item =>
      if item.1 = pubTable.fullName then (item.1, ⟨some result, some cfg⟩) else item)

section

variable (merged : mergePubTable tables pubTable = .ok filed)

include merged

theorem mergePubTable_cases : FileCase tables pubTable filed := by
  rcases known : filedUnder tables pubTable.fullName with _ | ⟨table, _ | cfg⟩
  · rw [mergePubTable_of_none known] at merged
    exact .new known (Except.ok.inj merged).symm
  · rw [mergePubTable_of_plain known] at merged
    exact .plain table known (Except.ok.inj merged).symm
  · obtain ⟨result, done, same⟩ := (mergePubTable_of_config known).mp merged
    exact .configured table cfg result known done same.symm

/-- A publication table refiles its own name only. -/
theorem filedUnder_mergePubTable (name : String) : filedUnder filed name =
      if pubTable.fullName = name then refile (filedUnder tables name) pubTable
      else filedUnder tables name := by
  cases mergePubTable_cases merged with
  | new known same =>
    rw [same, filedUnder_snoc _ _ known]
    by_cases here : pubTable.fullName = name
    · rw [if_pos here, if_pos here, ← here, known]
      rfl
    · rw [if_neg here, if_neg here]
  | plain table known same =>
    rw [same]
    by_cases here : pubTable.fullName = name
    · rw [if_pos here, ← here, known]
      rfl
    · rw [if_neg here]
  | configured table cfg result known done same =>
    rw [same, filedUnder_map]
    by_cases here : pubTable.fullName = name
    · rw [if_pos here, if_pos here, ← here, known]
      simp [refile, done, Except.toOption]
    · rw [if_neg here, if_neg here]

theorem configUnder_mergePubTable (name : String) :
    configUnder filed name = configUnder tables name := by
  rw [configUnder, filedUnder_mergePubTable merged]
  split
  · exact refile_cfg _ _
  · rfl

end

/-- A published table has every column that its configuration asks for. -/
def Accepts (tables : List (String × PGTableWithConfig)) (pubTable : Table) : Prop :=
  ∀ cfg, configUnder tables pubTable.fullName = some cfg →
    ∃ merged, mergeConfigAndPubTable pubTable cfg = .ok merged

theorem mergePubTable_ok_iff :
    (∃ filed, mergePubTable tables pubTable = .ok filed) ↔ Accepts tables pubTable := by
  rcases known : filedUnder tables pubTable.fullName with _ | ⟨table, _ | cfg⟩
  · simp [Accepts, configUnder, known, mergePubTable_of_none known]
  · simp [Accepts, configUnder, known, mergePubTable_of_plain known]
  · simp [Accepts, configUnder, known, mergePubTable_of_config known]

/-- A publication table leaves no entry without a table. -/
theorem mergePubTable_complete (complete : ∀ item ∈ tables, item.2.table.isSome)
    (merged : mergePubTable tables pubTable = .ok filed) :
    ∀ item ∈ filed, item.2.table.isSome := by
  intro item member
  cases mergePubTable_cases merged with
  | new _ same =>
    rw [same] at member
    rcases mem_append.mp member with old | new
    · exact complete item old
    · rw [mem_singleton.mp new]
      rfl
  | plain _ _ same => exact complete item (same ▸ member)
  | configured _ _ _ _ _ same =>
    rw [same] at member
    obtain ⟨old, stored, rfl⟩ := mem_map.mp member
    split
    · rfl
    · exact complete old stored

end Filing

section Publication

variable {tables filed : List (String × PGTableWithConfig)} {pubTables : List Table}

theorem filedUnder_foldlM (merged : pubTables.foldlM mergePubTable tables = .ok filed)
    (name : String) : filedUnder filed name =
      (pubTables.filter fun pubTable => pubTable.fullName = name).foldl refile
        (filedUnder tables name) := by
  induction pubTables generalizing tables with
  | nil =>
    cases merged
    rfl
  | cons pubTable rest ih =>
    obtain ⟨next, first, later⟩ := bind_eq_ok.mp merged
    rw [ih later, filedUnder_mergePubTable first]
    by_cases here : pubTable.fullName = name <;> simp [here]

theorem configUnder_foldlM (merged : pubTables.foldlM mergePubTable tables = .ok filed)
    (name : String) : configUnder filed name = configUnder tables name := by
  induction pubTables generalizing tables with
  | nil =>
    cases merged
    rfl
  | cons pubTable rest ih =>
    obtain ⟨next, first, later⟩ := bind_eq_ok.mp merged
    rw [ih later, configUnder_mergePubTable first]

/-- A publication is filed exactly when all its tables are accepted. -/
theorem foldlM_mergePubTable_ok_iff :
    (∃ filed, pubTables.foldlM mergePubTable tables = .ok filed) ↔
      ∀ pubTable ∈ pubTables, Accepts tables pubTable := by
  -- What the first table leaves accepts the same tables.
  induction pubTables generalizing tables with
  | nil => simp [pure, Except.pure]
  | cons pubTable rest ih =>
    rw [forall_mem_cons, ← mergePubTable_ok_iff]
    have accepts : ∀ next, mergePubTable tables pubTable = .ok next →
        ((∃ filed, rest.foldlM mergePubTable next = .ok filed) ↔
          ∀ other ∈ rest, Accepts tables other) := by
      intro next first
      rw [ih]
      simp [Accepts, configUnder_mergePubTable first]
    constructor
    · rintro ⟨filed, merged⟩
      obtain ⟨next, first, later⟩ := bind_eq_ok.mp merged
      exact ⟨⟨next, first⟩, (accepts next first).mp ⟨filed, later⟩⟩
    · rintro ⟨⟨next, first⟩, others⟩
      obtain ⟨filed, later⟩ := (accepts next first).mpr others
      exact ⟨filed, bind_eq_ok.mpr ⟨next, first, later⟩⟩

theorem foldlM_mergePubTable_complete (complete : ∀ item ∈ tables, item.2.table.isSome)
    (merged : pubTables.foldlM mergePubTable tables = .ok filed) :
    ∀ item ∈ filed, item.2.table.isSome := by
  induction pubTables generalizing tables with
  | nil =>
    cases merged
    exact complete
  | cons pubTable rest ih =>
    obtain ⟨next, first, later⟩ := bind_eq_ok.mp merged
    exact ih (mergePubTable_complete complete first) later

end Publication

theorem foldl_refile_plain (table : Option Table) (pubTables : List Table) :
    pubTables.foldl refile (some ⟨table, none⟩) = some ⟨table, none⟩ := by
  induction pubTables with
  | nil => rfl
  | cons pubTable rest ih => exact ih

theorem foldl_refile_config (table other : Option Table) (cfg : TableConfig)
    {pubTables : List Table} (some_read : pubTables ≠ [])
    (accepted : ∀ pubTable ∈ pubTables, ∃ merged,
      mergeConfigAndPubTable pubTable cfg = .ok merged) :
    pubTables.foldl refile (some ⟨table, some cfg⟩) =
      pubTables.foldl refile (some ⟨other, some cfg⟩) := by
  -- The first reading replaces either table by the same one.
  cases pubTables with
  | nil => exact absurd rfl some_read
  | cons pubTable rest =>
    obtain ⟨merged, done⟩ := accepted pubTable mem_cons_self
    simp [refile, done, Except.toOption]

/-- Readings of a publication made before do not show in an entry. -/
theorem foldl_refile_again {filed : Option PGTableWithConfig} {early late : List Table}
    (nested : early <+: late ∨ late <+: early)
    (known : late ≠ [] ∨ ∀ pubTable ∈ early, refile filed pubTable = filed)
    (accepted : ∀ pubTable ∈ early ++ late, ∀ cfg, filed.bind PGTableWithConfig.cfg = some cfg →
      ∃ merged, mergeConfigAndPubTable pubTable cfg = .ok merged) :
    (early ++ late).foldl refile filed = late.foldl refile filed := by
  -- What was read first is read again, or changed nothing.
  rw [foldl_append]
  by_cases unchanged : ∀ pubTable ∈ early, refile filed pubTable = filed
  · have same : early.foldl refile filed = filed := by
      clear nested known accepted
      induction early with
      | nil => rfl
      | cons pubTable rest ih =>
        rw [foldl_cons, unchanged pubTable mem_cons_self]
        exact ih fun other member => unchanged other (mem_cons_of_mem _ member)
    rw [same]
  · have read : late ≠ [] := known.resolve_right unchanged
    rcases filed with _ | ⟨table, _ | cfg⟩
    · -- The first table of the name is filed, and both readings begin with the same one.
      cases early with
      | nil => rfl
      | cons first rest =>
        cases late with
        | nil => exact absurd rfl read
        | cons second others =>
          have same : first = second := by
            rcases nested with front | front
            · exact (cons_prefix_cons.mp front).1
            · exact (cons_prefix_cons.mp front).1.symm
          subst same
          simp [refile, foldl_refile_plain]
    · rw [foldl_refile_plain]
    · -- The entry keeps its configuration, and the later reading decides the table.
      have kept : ∃ other, early.foldl refile (some ⟨table, some cfg⟩) =
          some ⟨other, some cfg⟩ := by
        clear nested known accepted unchanged
        induction early generalizing table with
        | nil => exact ⟨table, rfl⟩
        | cons pubTable rest ih => exact ih _
      obtain ⟨other, after⟩ := kept
      rw [after]
      refine foldl_refile_config _ _ cfg read fun pubTable member => ?_
      exact accepted pubTable (mem_append_right _ member) cfg rfl

namespace PGBufferedListener

/-- The columns of a relation whose values are kept, in order. -/
def keptColumns (txOptions : TxCommitTimeOptions) (pgTable : Table) (msg : RelationMessage) :
    List String :=
  let cols := (msg.columns.map RelationMessageColumn.name).filter pgTable.hasColumn
  if txOptions.save ∧ ¬ cols.contains txOptions.name then cols ++ [txOptions.name] else cols

/-- The listener after a relation that it has accepted. -/
def described (rl : PGBufferedListener V) (msg : RelationMessage)
    (tables : List (String × PGTableWithConfig)) (pgTable : Table) : PGBufferedListener V :=
  { rl with
    tables := tables
    relationVersion := rl.relationVersion + 1
    relations := Function.update rl.relations msg.relationID
      (some ⟨rl.relationVersion + 1, msg, ⟨keptColumns rl.txOptions pgTable msg⟩⟩) }

variable {next rl : PGBufferedListener V}

theorem mergeConfigAndPubTables_eq_ok {pubTables : List Table} :
    rl.mergeConfigAndPubTables pubTables = .ok next ↔
      ∃ tables, pubTables.foldlM mergePubTable rl.tables = .ok tables ∧
        (∀ item ∈ tables, item.2.table.isSome) ∧ next = { rl with tables := tables } := by
  have checked : ∀ tables : List (String × PGTableWithConfig),
      (tables.filter fun item => item.2.table.isNone) = [] ↔
        ∀ item ∈ tables, item.2.table.isSome := by
    simp [Option.isSome_iff_ne_none]
  simp only [mergeConfigAndPubTables, bind_eq_ok]
  refine exists_congr fun tables => and_congr_right fun _ => ?_
  rw [← checked]
  cases tables.filter fun item => item.2.table.isNone with
  | nil => simp [pure, Except.pure, eq_comm]
  | cons missing rest => simp [throw, throwThe]

/-- A relation is accepted if the merged publication names its table. -/
theorem onRelation_eq_ok {msg : RelationMessage} {publication : Except Fault (List Table)} :
    rl.onRelation msg publication = .ok next ↔
      ∃ pubTables tables pgTable, publication = .ok pubTables ∧
        pubTables.foldlM mergePubTable rl.tables = .ok tables ∧
        (∀ item ∈ tables, item.2.table.isSome) ∧
        (filedUnder tables (makeTableName msg.schema msg.relationName).fullName).bind
          PGTableWithConfig.table = some pgTable ∧
        next = rl.described msg tables pgTable := by
  constructor
  · intro handled
    simp only [onRelation] at handled
    split at handled
    · cases handled
    · rename_i merged loaded
      obtain ⟨pubTables, answered, loaded⟩ := bind_eq_ok.mp loaded
      obtain ⟨tables, filed, complete, rfl⟩ := mergeConfigAndPubTables_eq_ok.mp loaded
      split at handled
      · cases handled
      · rename_i pgTable found
        cases handled
        exact ⟨pubTables, tables, pgTable, answered, filed, complete, found, rfl⟩
  · rintro ⟨pubTables, tables, pgTable, rfl, filed, complete, found, rfl⟩
    have loaded := mergeConfigAndPubTables_eq_ok.mpr ⟨tables, filed, complete, rfl⟩
    have named : (({ rl with tables := tables }).getTable
        (makeTableName msg.schema msg.relationName)).bind PGTableWithConfig.table =
          some pgTable := found
    simp only [onRelation, bind, Except.bind, loaded, named]
    rfl

end PGBufferedListener

end PgWalk
