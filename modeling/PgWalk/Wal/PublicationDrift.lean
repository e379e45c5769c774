import PgWalk.Lib.Dict
import PgWalk.Wal.Schema

/-! Whether a publication still has the tables and columns that the configuration asks for. -/

namespace PgWalk

open List

def Table.names (table : Table) : List String := table.columns.map Column.name

variable {pub all : List (String × Table)} {cfg : List (String × TableConfig)}
  {table full : Table} {tc : TableConfig} {name : String}

def columnsDifferWithAllInConfig (pubTable full : Table) : Bool :=
  pubTable.columns.length ≠ full.columns.length ||
    pubTable.columns.any fun col => !full.hasColumn col.name

def columnsDiffer (pubTable full : Table) (configTable : TableConfig) : Bool :=
  if configTable.allColumns then columnsDifferWithAllInConfig pubTable full
  else pubTable.columns.length ≠ configTable.columns.length ||
    configTable.columns.any fun column => !pubTable.hasColumn column

def hasChanges (pubTables allColumns : List (String × Table))
    (tableConfig : List (String × TableConfig)) : Bool :=
  (tableConfig.any fun (tableName, tableInConfig) =>
    match pubTables.lookup tableName, allColumns.lookup tableName with
    | some pubTable, some full => columnsDiffer pubTable full tableInConfig
    | _, _ => true) ||
  pubTables.any fun (tableName, _) => (tableConfig.lookup tableName).isNone

/-- Published tables are known whole, in maps from names to columns. -/
def Consistent (pub all : List (String × Table)) : Prop :=
  ∀ name table, pub.lookup name = some table → table.names.Nodup ∧
    ∃ full, all.lookup name = some full ∧ full.names.Nodup ∧ table.names ⊆ full.names

/-- The columns a configuration asks for of a whole table. -/
def TableConfig.wanted (tc : TableConfig) (full : Table) : List String :=
  if tc.allColumns then full.names else tc.columns

/-- Both sides have the same tables, and each agrees with what is asked. -/
structure Agree (agree : List String → List String → Prop) (pub all : List (String × Table))
    (cfg : List (String × TableConfig)) : Prop where
  tables : ∀ name, name ∈ pub.map Prod.fst ↔ name ∈ cfg.map Prod.fst
  columns : ∀ pair ∈ cfg, ∀ table full, pub.lookup pair.1 = some table →
    all.lookup pair.1 = some full → agree table.names (pair.2.wanted full)

/-- Each table is published with the set of columns asked for. -/
def InStep := Agree fun published wanted => ∀ column, column ∈ published ↔ column ∈ wanted

/-- As many columns are published as asked for, the latter among them. -/
def Counted := Agree fun published wanted => published.length = wanted.length ∧ wanted ⊆ published

/-- No column is configured twice, unless all of them are asked for. -/
def Once (cfg : List (String × TableConfig)) : Prop :=
  ∀ pair ∈ cfg, pair.2.allColumns = false → pair.2.columns.Nodup

theorem Table.hasColumn_iff {column : String} :
    table.hasColumn column = true ↔ column ∈ table.names := by
  simp [Table.hasColumn, Table.names]

/-- Counting decides whether a list inside another has all of it. -/
theorem length_eq_and_subset {xs ys : List String} (left : xs.Nodup) (right : ys.Nodup) :
    xs.length = ys.length ∧ ys ⊆ xs ↔ ∀ x, x ∈ xs ↔ x ∈ ys := by
  rw [← perm_ext_iff_of_nodup left right]
  refine ⟨fun ⟨sized, inside⟩ => ?_, fun same => ⟨same.length_eq, same.symm.subset⟩⟩
  exact ((subperm_of_subset right inside).perm_of_length_le sized.le).symm

/-- Columns differ unless as many as asked for, with those among them. -/
theorem columnsDiffer_eq_false (own : table.names.Nodup) (every : full.names.Nodup) :
    columnsDiffer table full tc = false ↔
      table.names.length = (tc.wanted full).length ∧ tc.wanted full ⊆ table.names := by
  -- The published columns are looked up among all, not vice versa.
  rw [columnsDiffer, TableConfig.wanted]
  cases asked : tc.allColumns with
  | true =>
    have swap := (length_eq_and_subset every own).trans (forall_congr' fun _ => iff_comm)
    rw [if_pos rfl, if_pos rfl, length_eq_and_subset own every, ← swap]
    simp [columnsDifferWithAllInConfig, Table.hasColumn_iff, Table.names, subset_def,
      @eq_comm _ full.columns.length]
  | false =>
    simp [Table.hasColumn_iff, Table.names, subset_def]

section

variable (consistent : Consistent pub all)

include consistent

/-- No change is reported exactly when columns are counted alike. -/
theorem hasChanges_eq_false : hasChanges pub all cfg = false ↔ Counted pub all cfg := by
  -- A configured table that is published differs exactly when its columns do.
  have same {pair : String × TableConfig} {table : Table} (found : pub.lookup pair.1 = some table)
      {full : Table} (known : all.lookup pair.1 = some full) :
      columnsDiffer table full pair.2 = false ↔
        table.names.length = (pair.2.wanted full).length ∧ pair.2.wanted full ⊆ table.names := by
    obtain ⟨distinct, full', found', every, -⟩ := consistent pair.1 table found
    cases known.symm.trans found'
    exact columnsDiffer_eq_false distinct every
  rw [hasChanges, Bool.or_eq_false_iff, List.any_eq_false, List.any_eq_false]
  constructor
  · rintro ⟨configured, published⟩
    refine ⟨fun name => ⟨fun own => ?_, fun own => ?_⟩, fun pair own table full found known => ?_⟩
    · obtain ⟨pair, inside, rfl⟩ := mem_map.mp own
      exact Dict.mem_keys_iff.mpr (by simpa using published pair inside)
    · obtain ⟨pair, inside, rfl⟩ := mem_map.mp own
      rw [Dict.mem_keys_iff]
      cases found : pub.lookup pair.1 with
      | none => simpa [found] using configured pair inside
      | some table => rfl
    · exact (same found known).mp (by simpa [found, known] using configured pair own)
  · intro counted
    refine ⟨fun pair own => ?_, fun pair own => ?_⟩
    · obtain ⟨table, found⟩ := Option.isSome_iff_exists.mp
        (Dict.mem_keys_iff.mp ((counted.tables pair.1).mpr (mem_map_of_mem own)))
      obtain ⟨-, full, known, -⟩ := consistent pair.1 table found
      simpa [found, known] using (same found known).mpr (counted.columns pair own _ _ found known)
    · have kept := Dict.mem_keys_iff.mp ((counted.tables pair.1).mp (mem_map_of_mem own))
      simpa using kept

/-- With no repetition, tables are counted alike when in step. -/
theorem counted_iff_inStep (once : Once cfg) : Counted pub all cfg ↔ InStep pub all cfg := by
  have same {pair} (own : pair ∈ cfg) {table full} (found : pub.lookup pair.1 = some table)
      (known : all.lookup pair.1 = some full) :
      table.names.length = (pair.2.wanted full).length ∧ pair.2.wanted full ⊆ table.names ↔
        ∀ column, column ∈ table.names ↔ column ∈ pair.2.wanted full := by
    obtain ⟨distinct, full', found', every, -⟩ := consistent pair.1 table found
    cases known.symm.trans found'
    have wanted : (pair.2.wanted full).Nodup := by
      rw [TableConfig.wanted]
      cases asked : pair.2.allColumns with
      | true => exact every
      | false => exact once pair own asked
    exact length_eq_and_subset distinct wanted
  exact ⟨fun counted => ⟨counted.tables, fun pair own _ _ found known =>
      (same own found known).mp (counted.columns pair own _ _ found known)⟩,
    fun step => ⟨step.tables, fun pair own _ _ found known =>
      (same own found known).mpr (step.columns pair own _ _ found known)⟩⟩

/-- Tables counted alike and in step have no repetition. -/
theorem Counted.once (counted : Counted pub all cfg) (step : InStep pub all cfg) : Once cfg := by
  -- As many distinct names in a list leave no second copy.
  intro pair own asked
  obtain ⟨table, found⟩ := Option.isSome_iff_exists.mp
    (Dict.mem_keys_iff.mp ((step.tables pair.1).mpr (mem_map_of_mem own)))
  obtain ⟨distinct, full, known, -⟩ := consistent pair.1 table found
  have sized := (counted.columns pair own table full found known).1
  have same := step.columns pair own table full found known
  simp only [TableConfig.wanted, asked, Bool.false_eq_true, if_false] at sized same
  have inside := subperm_of_subset distinct fun column => (same column).mp
  exact (inside.perm_of_length_le sized.ge).nodup_iff.mp distinct

end

/--
A change is reported exactly when something is out of step, if no column is configured twice; and
with a repetition only where neither the counts nor the sets agree.
-/
theorem hasChanges_exact_iff (consistent : Consistent pub all) :
    (hasChanges pub all cfg = false ↔ InStep pub all cfg) ↔
      Once cfg ∨ ¬ Counted pub all cfg ∧ ¬ InStep pub all cfg := by
  rw [hasChanges_eq_false consistent]
  constructor
  · intro same
    by_cases counted : Counted pub all cfg
    · exact .inl (counted.once consistent (same.mp counted))
    · exact .inr ⟨counted, mt same.mpr counted⟩
  · rintro (once | ⟨counted, step⟩)
    · exact counted_iff_inStep consistent once
    · exact iff_of_false counted step

namespace Sample

/-- A publication of one table with both its columns. -/
def published : List (String × Table) :=
  [("public.t", ⟨makeTableName "public" "t", [⟨"a", 0, true, 0⟩, ⟨"b", 0, false, 1⟩], [], 0⟩)]

theorem consistent_published : Consistent published published := by
  intro name table found
  obtain ⟨rfl, rfl⟩ := Dict.lookup_singleton found
  exact ⟨by decide, _, found, by decide, fun _ => id⟩

end Sample

open Sample in
/-- Columns in another order are in step; a repeated one is told. -/
theorem hasChanges_exact_iff_reordered :
    InStep published published [("public.t", ⟨["b", "a"]⟩)] ∧
      (hasChanges published published [("public.t", ⟨["a", "a", "a"]⟩)] = false ↔
        InStep published published [("public.t", ⟨["a", "a", "a"]⟩)]) := by
  refine ⟨((hasChanges_exact_iff consistent_published).mpr (.inl ?_)).mp (by decide),
    (hasChanges_exact_iff consistent_published).mpr (.inr ⟨fun counted => ?_, fun step => ?_⟩)⟩
  · simp [Once]
  · exact absurd (counted.columns _ mem_cons_self _ _ rfl rfl).1 (by decide)
  · have same := step.columns _ mem_cons_self _ _ rfl rfl "b"
    exact absurd (same.mp (by decide)) (by decide)

open Sample in
/-- A column configured twice hides another published beside it. -/
theorem hasChanges_missed :
    ∃ pub all cfg, Consistent pub all ∧ hasChanges pub all cfg = false ∧ ¬ InStep pub all cfg := by
  refine ⟨published, published, [("public.t", ⟨["a", "a"]⟩)], consistent_published, by decide,
    fun step => ?_⟩
  have same := step.columns _ mem_cons_self _ _ rfl rfl "b"
  exact absurd (same.mp (by decide)) (by decide)

end PgWalk
