import Mathlib.Data.List.Dedup
import PgWalk.Listener.Publication
import PgWalk.Listener.RowKeys
import PgWalk.Redis.Config
import PgWalk.Redis.Pattern
import PgWalk.Wal.Reading

/-! The columns that commands and conditions ask for, and whether a row's key is among them. -/

namespace PgWalk

open PGBufferedListener List Option

/-- The columns of the primary key are columns of the table. -/
def Table.Keyed (table : Table) : Prop := ∀ col ∈ table.pk, table.hasColumn col.name

instance (table : Table) : Decidable table.Keyed :=
  inferInstanceAs (Decidable (∀ col ∈ table.pk, table.hasColumn col.name))

variable {merged table : Table} {cfg : TableConfig} {name : String}

namespace Redis

/-- What a placeholder has behind a word that announces several columns. -/
def announced (placeholder : String) : Option String :=
  (["pairs:", "json:", "columns:", "diff:"].find? (hasPrefix placeholder)).map
    (trimPrefix placeholder)

/-- The columns of some placeholders, or all once one asks for them. -/
def columnsOf (cols : List String) : List String → List String × Bool
  | [] => (cols, false)
  | placeholder :: rest =>
    match announced placeholder with
    | some content =>
      if content = "*" then ([], true)
      else columnsOf (cols ++ ((splitCommas content).map trimSpace).filter (· ≠ "")) rest
    | none =>
      let name := trimSpace placeholder
      -- Names between percent signs stand for the table, the key and the like.
      if hasPrefix name "%" || hasSuffix name "%" then columnsOf cols rest
      else columnsOf (cols ++ [trimPrefix name "old:"]) rest

def placeholders (text : String) : List String :=
  (segments text.toList).filterMap fun part =>
    match part with
    | .literal _ => none
    | .placeholder content => some (String.ofList content)

/-- The columns a text asks for, and whether it asks for all of them. -/
def extractColumnsFromPlaceholder (text : String) : List String × Bool :=
  columnsOf [] (placeholders text)

def conditionColumns (cond : ConditionConfig) : List String :=
  (extractColumnsFromPlaceholder (String.ofList (braced cond.column.toList))).1 ++
    (extractColumnsFromPlaceholder cond.value).1 ++
    cond.values.flatMap fun value => (extractColumnsFromPlaceholder value).1

variable (group : RedisCommandWithCondition)

def groupColumns : List String :=
  (group.commands.flatMap fun cmd => cmd.flatMap fun arg =>
    (extractColumnsFromPlaceholder arg).1) ++
  (group.condition.map conditionColumns).getD []

/-- Whether a command of a group asks for all columns. -/
def groupHasAll : Bool :=
  group.commands.any fun cmd => cmd.any fun arg => (extractColumnsFromPlaceholder arg).2

def RedisTableConfig.allCommands (cfg : RedisTableConfig) : List RedisCommandWithCondition :=
  cfg.resolvedCommands ++ cfg.insertCommands ++ cfg.updateCommands ++ cfg.deleteCommands

/-- A table's configured columns, in any order behind the word for all. -/
def RedisTableConfig.ExtractColumns (cfg : RedisTableConfig) (columns : List String) : Prop :=
  ∃ order : List String, order.Perm (cfg.allCommands.flatMap groupColumns).dedup ∧
    columns = (if cfg.allCommands.any groupHasAll then [allColumnsWord] else []) ++ order

theorem RedisTableConfig.ExtractColumns.mem_iff {cfg : RedisTableConfig} {columns : List String}
    (extracted : cfg.ExtractColumns columns) (some_columns : ¬ TableConfig.allColumns ⟨columns⟩)
    (name : String) : name ∈ columns ↔ name ∈ cfg.allCommands.flatMap groupColumns := by
  -- The word for all columns would come first.
  obtain ⟨order, perm, rfl⟩ := extracted
  cases hasAll : cfg.allCommands.any groupHasAll with
  | true =>
    refine absurd ?_ some_columns
    simp only [hasAll, if_true]
    show equalFold allColumnsWord allColumnsWord = true
    decide
  | false => simp [perm.mem_iff]

end Redis

theorem mergeConfigAndPubTable_eq
    (accepted : mergeConfigAndPubTable table cfg = .ok merged) :
    merged = if cfg.allColumns then table else
      table.withColumns (table.columns.filter fun col => cfg.columns.contains col.name) := by
  simp only [mergeConfigAndPubTable] at accepted
  split at accepted
  · cases accepted
  · split at accepted
    · rename_i all
      cases accepted
      rw [if_pos all]
    · rename_i some_columns
      cases accepted
      rw [if_neg some_columns]

/-- A column is kept if it is configured. -/
theorem hasColumn_merged
    (accepted : mergeConfigAndPubTable table cfg = .ok merged) (name : String) :
    merged.hasColumn name ↔ table.hasColumn name ∧ (cfg.allColumns ∨ name ∈ cfg.columns) := by
  rw [mergeConfigAndPubTable_eq accepted]
  split
  · rename_i all
    simp [all]
  · rename_i some_columns
    simp only [Table.hasColumn, Table.withColumns, List.any_filter, List.any_eq_true,
      Bool.and_eq_true, contains_iff_mem, decide_eq_true_eq]
    constructor
    · rintro ⟨col, member, configured, rfl⟩
      exact ⟨⟨col, member, rfl⟩, .inr configured⟩
    · rintro ⟨⟨col, member, rfl⟩, all | configured⟩
      · exact absurd all some_columns
      · exact ⟨col, member, configured, rfl⟩

/-- Reading the same table again files the same. -/
theorem foldl_refile_same {pubTable : Table}
    (accepted : mergeConfigAndPubTable pubTable cfg = .ok merged)
    {read : List Table} (some_read : read ≠ []) (same : ∀ other ∈ read, other = pubTable)
    (table : Option Table) :
    read.foldl refile (some ⟨table, some cfg⟩) = some ⟨some merged, some cfg⟩ := by
  induction read generalizing table with
  | nil => exact absurd rfl some_read
  | cons first rest ih =>
    have here : refile (some ⟨table, some cfg⟩) first = some ⟨some merged, some cfg⟩ := by
      rw [same first mem_cons_self]
      simp [refile, accepted, Except.toOption]
    rw [foldl_cons, here]
    by_cases more : rest = []
    · rw [more]
      rfl
    · exact ih more (fun other member => same other (mem_cons_of_mem _ member)) _

variable {V : Type}

namespace PGBufferedListener

variable {cfg : TableConfig} {rl : PGBufferedListener V} {table : Table}

/-- A configured table's relation is described by configured columns. -/
theorem onRelation_configured {next : PGBufferedListener V} {msg : RelationMessage}
    {pubTables : List Table} {pubTable : Table}
    (named : pubTable.name = makeTableName msg.schema msg.relationName)
    (configured : configUnder rl.tables pubTable.fullName = some cfg)
    (member : pubTable ∈ pubTables)
    (only : ∀ other ∈ pubTables, other.fullName = pubTable.fullName → other = pubTable)
    (handled : rl.onRelation msg (.ok pubTables) = .ok next) :
    ∃ merged, mergeConfigAndPubTable pubTable cfg = .ok merged ∧
      next.getTable pubTable.name = some ⟨some merged, some cfg⟩ ∧
      next.relations msg.relationID =
        some ⟨rl.relationVersion + 1, msg, ⟨keptColumns rl.txOptions merged msg⟩⟩ := by
  -- The table is read once, so it is filed as it is merged.
  obtain ⟨_, tables, pgTable, ⟨⟩, filed, -, found, rfl⟩ := onRelation_eq_ok.mp handled
  obtain ⟨merged, accepted⟩ :=
    foldlM_mergePubTable_ok_iff.mp ⟨tables, filed⟩ pubTable member cfg configured
  obtain ⟨earlier, known, same⟩ := bind_eq_some_iff.mp configured
  have entry : filedUnder tables pubTable.fullName = some ⟨some merged, some cfg⟩ := by
    rw [filedUnder_foldlM filed, known]
    obtain ⟨table, own⟩ := earlier
    obtain rfl : own = some cfg := same
    refine foldl_refile_same accepted ?_ ?_ table
    · exact ne_nil_of_mem (mem_filter.mpr ⟨member, by simp⟩)
    · intro other stored
      obtain ⟨inList, sameName⟩ := mem_filter.mp stored
      exact only other inList (by simpa using sameName)
  have looked : (filedUnder tables (makeTableName msg.schema msg.relationName).fullName) =
      some ⟨some merged, some cfg⟩ := by
    rw [← named]
    exact entry
  rw [looked] at found
  obtain rfl : merged = pgTable := by simpa using found
  exact ⟨merged, accepted, entry, by simp [described]⟩

/-- The indexes that are read of the tuples of a configured table. -/
def configuredIndexes (cfg : TableConfig) (table : Table) (columns : List RelationMessageColumn) :
    List Nat :=
  if cfg.allColumns then List.range columns.length
  else columns.zipIdx.filterMap fun item =>
    if table.hasColumn item.1.name then some item.2 else none

theorem mem_configuredIndexes {columns : List RelationMessageColumn} {index : Nat} :
    index ∈ configuredIndexes cfg table columns ↔ ∃ relCol, columns[index]? = some relCol ∧
      (cfg.allColumns ∨ table.hasColumn relCol.name) := by
  simp only [configuredIndexes]
  split
  · rename_i all
    simp [all, getElem?_eq_some_iff]
  · rename_i some_columns
    simp only [mem_filterMap, ite_none_right_eq_some, some.injEq, some_columns,
      Bool.false_eq_true, false_or]
    constructor
    · rintro ⟨⟨relCol, place⟩, member, kept, rfl⟩
      exact ⟨relCol, mem_zipIdx_iff_getElem?.mp member, kept⟩
    · rintro ⟨relCol, column, kept⟩
      exact ⟨(relCol, index), mem_zipIdx_iff_getElem?.mpr column, kept, rfl⟩

theorem readRelTuple_eq_ok {known : RelationVersion} {name : TableName}
    (filed : rl.getTable name = some ⟨some table, some cfg⟩) {t : TupleData}
    (whole : t.columns.length = known.rel.columns.length) {om : OrderedMap V} :
    rl.readRelTuple known (some t) name = .ok (some om) ↔
      (configuredIndexes cfg table known.rel.columns).foldlM
        (readColumn rl.codec known.rel.columns t) (.new known.keyMap) = .ok om := by
  simp only [readRelTuple, getReadIndexes, filed, map_some, some.injEq, configuredIndexes]
  split
  · rw [pure_bind, readTuple_eq_ok]
    simp [ReadTupleConfig.indexes, whole]
  · rw [pure_bind, readTuple_eq_ok]
    rfl

end PGBufferedListener

theorem mem_keptColumns {txOptions : TxCommitTimeOptions} {msg : RelationMessage}
    (sent : name ∈ msg.columns.map RelationMessageColumn.name) (has : table.hasColumn name) :
    name ∈ keptColumns txOptions table msg := by
  have kept : name ∈ (msg.columns.map RelationMessageColumn.name).filter table.hasColumn :=
    mem_filter.mpr ⟨sent, has⟩
  simp only [keptColumns]
  split
  · exact mem_append_left _ kept
  · exact kept

/-- A column that is sent and kept is read from every complete tuple. -/
theorem readAt_of_kept {rl : PGBufferedListener V} {txOptions : TxCommitTimeOptions}
    {msg : RelationMessage} {version : Nat} {relation : TableName} {t : TupleData}
    {om : OrderedMap V} (filed : rl.getTable relation = some ⟨some table, some cfg⟩)
    (distinct : (msg.columns.map RelationMessageColumn.name).Nodup)
    (sent : name ∈ msg.columns.map RelationMessageColumn.name) (has : table.hasColumn name)
    (whole : t.columns.length = msg.columns.length) (complete : t.Complete)
    (read : rl.readRelTuple ⟨version, msg, ⟨keptColumns txOptions table msg⟩⟩ (some t) relation =
      .ok (some om)) :
    ∃ (index : Nat) (relCol : _), msg.columns[index]? = some relCol ∧ relCol.name = name ∧
      ReadAt rl.codec t index relCol om := by
  obtain ⟨relCol, inRelation, rfl⟩ := List.mem_map.mp sent
  obtain ⟨index, place⟩ := mem_iff_getElem?.mp inRelation
  refine ⟨index, relCol, place, rfl, ?_⟩
  have folded := (readRelTuple_eq_ok filed whole).mp read
  refine (readColumns_spec distinct (OrderedMap.wellSized_new _) complete folded place ?_).1
    (.inl ?_)
  · exact mem_keptColumns sent has
  · exact mem_configuredIndexes.mpr ⟨relCol, place, .inr has⟩

/-- A key text that joins the values which a row has itself for the columns of the key. -/
def JoinsKey (codec : ValueCodec V) (table : Table) (columns : List RelationMessageColumn)
    (t : TupleData) (text : String) : Prop :=
  ∃ values : List (Option V), Forall₂ (fun col value => ∃ (index : Nat) (relCol : _) (received : _),
    columns[index]? = some relCol ∧ relCol.name = col.name ∧ t.columns[index]? = some received ∧
      received.Holds codec relCol.dataType value) (table.pk.insertionSort Column.before) values ∧
    text.toList = [':'].intercalate (values.map fun value => (codec.sprintAny value).toList)

/-- A tuple into which the columns of the key were read gives the key of its row. -/
theorem createPK_joins {codec : ValueCodec V} {columns : List RelationMessageColumn}
    {t : TupleData} {om : OrderedMap V}
    (read : ∀ col ∈ table.pk, ∃ (index : Nat) (relCol : _), columns[index]? = some relCol ∧
      relCol.name = col.name ∧ ReadAt codec t index relCol om) :
    ∃ text, createPK codec table (some om) = .ok text ∧ JoinsKey codec table columns t text := by
  obtain ⟨text, joined, spelled⟩ := createPK_toList codec table om
  refine ⟨text, joined, (table.pk.insertionSort Column.before).map fun col =>
    (om.get col.name).getD none, ?_, ?_⟩
  · rw [forall₂_map_right_iff, forall₂_same]
    intro col inKey
    obtain ⟨index, relCol, place, same, received, value, sent, holds, held⟩ :=
      read col ((mem_insertionSort _).mp inKey)
    refine ⟨index, relCol, received, place, same, sent, ?_⟩
    rw [← same, held]
    exact holds
  · simp [spelled, renderedKey, Function.comp_def]

namespace Redis

/--
The key of a row is read from the row, for every complete tuple, exactly when the configuration asks
for the key's columns, as one does that mentions no column or asks for all.
-/
theorem key_read_from_row_iff {rl next : PGBufferedListener V} {cfg : RedisTableConfig}
    {columns : List String} {pubTable : Table} {pubTables : List Table} {msg : RelationMessage}
    (extracted : cfg.ExtractColumns columns)
    (configured : configUnder rl.tables pubTable.fullName = some ⟨columns⟩)
    (keyed : pubTable.Keyed) (member : pubTable ∈ pubTables)
    (only : ∀ other ∈ pubTables, other.fullName = pubTable.fullName → other = pubTable)
    (named : pubTable.name = makeTableName msg.schema msg.relationName)
    (distinct : (msg.columns.map RelationMessageColumn.name).Nodup)
    (sent : ∀ col ∈ pubTable.pk, col.name ∈ msg.columns.map RelationMessageColumn.name)
    (handled : rl.onRelation msg (.ok pubTables) = .ok next) :
    ∃ known, next.relations msg.relationID = some known ∧ known.rel = msg ∧
      (((∀ col ∈ pubTable.pk, col.name ∈ known.keyMap.keysArr) ∧
        ∀ t om, t.columns.length = msg.columns.length → t.Complete →
          next.readRelTuple known (some t) pubTable.name = .ok (some om) →
          ∀ col ∈ pubTable.pk, ∃ index relCol, msg.columns[index]? = some relCol ∧
            relCol.name = col.name ∧ ReadAt next.codec t index relCol om) ↔
        (TableConfig.allColumns ⟨columns⟩ ∨
          ∀ col ∈ pubTable.pk, col.name ∈ cfg.allCommands.flatMap groupColumns)) ∧
      ((TableConfig.allColumns ⟨columns⟩ ∨
          ∀ col ∈ pubTable.pk, col.name ∈ cfg.allCommands.flatMap groupColumns) →
        ∀ t om, t.columns.length = msg.columns.length → t.Complete →
          next.readRelTuple known (some t) pubTable.name = .ok (some om) →
          ∃ pgTable text, (next.getTable pubTable.name).bind PGTableWithConfig.table =
              some pgTable ∧ createPK next.codec pgTable (some om) = .ok text ∧
            JoinsKey next.codec pubTable msg.columns t text) := by
  -- Every key column that is published and configured is kept.
  obtain ⟨merged, accepted, filed, described⟩ :=
    onRelation_configured named configured member only handled
  have keys : merged.pk = pubTable.pk := by
    rw [mergeConfigAndPubTable_eq accepted]
    split <;> rfl
  have kept (asked : TableConfig.allColumns ⟨columns⟩ ∨ ∀ col ∈ pubTable.pk,
      col.name ∈ cfg.allCommands.flatMap groupColumns) (col) (inKey : col ∈ pubTable.pk) :
      merged.hasColumn col.name := by
    refine (hasColumn_merged accepted col.name).mpr ⟨keyed col inKey, ?_⟩
    by_cases all : TableConfig.allColumns ⟨columns⟩
    · exact .inl all
    · exact .inr ((extracted.mem_iff all col.name).mpr (asked.resolve_left all col inKey))
  refine ⟨_, described, rfl, ⟨?_, fun asked => ⟨fun col inKey => ?_, ?_⟩⟩, ?_⟩
  · rintro ⟨inMap, values⟩
    have fresh := @OrderedMap.wellSized_new V ⟨keptColumns rl.txOptions merged msg⟩
    rw [or_iff_not_imp_left]
    intro some_columns col inKey
    by_contra unmentioned
    have dropped : ¬ merged.hasColumn col.name := by
      rw [hasColumn_merged accepted]
      rintro ⟨-, all | configured⟩
      · exact some_columns all
      · exact unmentioned ((extracted.mem_iff some_columns col.name).mp configured)
    -- A row of nulls is read without the column.
    obtain ⟨om, read⟩ := @readColumns_nulls V next.codec msg.columns
      ⟨List.replicate msg.columns.length .null⟩ _ fresh
      (configuredIndexes ⟨columns⟩ merged msg.columns)
      (fun index inIndexes => by
        obtain ⟨relCol, place, -⟩ := mem_configuredIndexes.mp inIndexes
        exact (List.getElem?_eq_some_iff.mp place).1) rfl
    have complete : (⟨List.replicate msg.columns.length .null⟩ : TupleData).Complete :=
      fun item stored => .inl (List.eq_of_mem_replicate stored)
    obtain ⟨index, relCol, place, same, _, _, -, -, held⟩ := values _ om length_replicate
      complete ((readRelTuple_eq_ok filed length_replicate).mpr read)
      col inKey
    have skipped : index ∉ configuredIndexes ⟨columns⟩ merged msg.columns := by
      rw [mem_configuredIndexes]
      rintro ⟨other, found, asked⟩
      obtain rfl : relCol = other := some.inj (place.symm.trans found)
      exact asked.elim some_columns (same ▸ dropped)
    have inMap : relCol.name ∈ keptColumns rl.txOptions merged msg := same ▸ inMap col inKey
    rw [(readColumns_spec distinct fresh complete read place inMap).2 skipped,
      OrderedMap.get_new] at held
    cases held
  · exact mem_keptColumns (sent col inKey) (kept asked col inKey)
  · intro t om whole complete read col inKey
    exact readAt_of_kept filed distinct (sent col inKey) (kept asked col inKey) whole complete read
  · intro asked t om whole complete read
    refine ⟨merged, ?_⟩
    rw [filed]
    obtain ⟨text, joined, spelled⟩ := @createPK_joins merged V next.codec msg.columns t om
      fun col inKey => readAt_of_kept filed distinct (sent col (keys ▸ inKey))
        (kept asked col (keys ▸ inKey)) whole complete read
    rw [JoinsKey, keys] at spelled
    exact ⟨text, rfl, joined, spelled⟩

namespace Sample

/-- A table whose rows are stored under their keys by one command. -/
def storedAs (value : String) : RedisTableConfig where
  fullName := "public.users"
  insert := none
  update := none
  delete := none
  commands := []
  resolvedCommands := [⟨[["SET", "\x7b%pk%\x7d", value]], none⟩]
  insertCommands := []
  updateCommands := []
  deleteCommands := []

/-- A listener for some columns of a table not described yet. -/
def configuredListener (columns : List String) : PGBufferedListener (List UInt8) :=
  { PgWalk.Sample.listener with
    relations := fun _ => none
    tables := [("public.users", ⟨none, some ⟨columns⟩⟩)] }

end Sample

/-- A command that mentions both columns has the key column in the key map and in the key. -/
theorem key_read_from_row_iff_both :
    ∃ next known t om text, (Sample.configuredListener ["id", "name"]).onRelation
        PgWalk.Sample.usersRelation (.ok [PgWalk.Sample.users]) = .ok next ∧
      next.relations 16384 = some known ∧
      (∀ col ∈ PgWalk.Sample.users.pk, col.name ∈ known.keyMap.keysArr) ∧
      PgWalk.Sample.user 49 97 = some t ∧
      next.readRelTuple known (some t) PgWalk.Sample.users.name = .ok (some om) ∧
      JoinsKey next.codec PgWalk.Sample.users PgWalk.Sample.usersRelation.columns t text := by
  have extracted : (Sample.storedAs "\x7bid\x7d,\x7bname\x7d").ExtractColumns ["id", "name"] :=
    ⟨["id", "name"], by decide, by decide⟩
  obtain ⟨known, described, -, read, joined⟩ := key_read_from_row_iff extracted rfl
    (by decide : PgWalk.Sample.users.Keyed) (mem_singleton.mpr rfl)
    (fun other member _ => mem_singleton.mp member) rfl (by decide) (by decide)
    (rfl : (Sample.configuredListener ["id", "name"]).onRelation PgWalk.Sample.usersRelation _ =
      .ok _)
  cases described
  obtain ⟨pgTable, text, -, -, spelled⟩ := joined (.inr (by decide)) ⟨[.text [49], .text [97]]⟩ _
    rfl (by simp [TupleData.Complete]) rfl
  exact ⟨_, _, _, _, text, rfl, rfl, (read.mpr (.inr (by decide))).1, rfl, rfl, spelled⟩

/-- A command with the key only as such gives two rows one key. -/
theorem key_lost_without_column :
    (Sample.storedAs "\x7bname\x7d").ExtractColumns ["name"] ∧
      ∃ next change other, (Sample.configuredListener ["name"]).onRelation
          PgWalk.Sample.usersRelation (.ok [PgWalk.Sample.users]) = .ok next ∧
        next.changeOf (.insert ⟨0, 16384, PgWalk.Sample.user 49 97⟩) = .ok change ∧
        next.changeOf (.insert ⟨0, 16384, PgWalk.Sample.user 50 98⟩) = .ok other ∧
        change.pk = "<nil>" ∧ other.pk = "<nil>" :=
  ⟨⟨["name"], by decide, by decide⟩, _, _, _, rfl, rfl, rfl, by decide, by decide⟩

end Redis

end PgWalk
