import PgWalk.Redis.Lookups

/-! Configurations next to the schema, and the columns that validated conditions resolve to. -/

namespace PgWalk.Redis

open RedisTableConfig List Option

variable {V F : Type}

/-- The columns a pattern mentions, none where it asks for all. -/
def columnsFromPattern (pattern : String) : List String :=
  let found := extractColumnsFromPlaceholder pattern
  if found.2 then [] else found.1

/-- The object id of the type of truth values. -/
def boolOID : Nat := 16

/-- The object id of the type of JSON texts. -/
def jsonOID : Nat := 114

/-- The object id of the type of JSON documents. -/
def jsonbOID : Nat := 3802

/-- Whether an operator is allowed for a column of a type. -/
def conditionOperatorAllowedForType (op : ConditionOperator) (typeID : Nat) : Bool :=
  if op = .isNull ∨ op = .isNotNull then true
  else if typeID = boolOID then
    op ∈ [ConditionOperator.equal, .notEqual, .isIn, .notIn, .isDistinctFrom]
  else if typeID = jsonOID ∨ typeID = jsonbOID then op = .isDistinctFrom
  else true

variable (text : TextLibrary)

/-- The columns of a pattern a table lacks, as reported. -/
def missingColumns (tableName role : String) (table : Table) (pattern : String) : List String :=
  ((columnsFromPattern pattern).filter fun colName => !table.hasColumn colName).map fun colName =>
    "table " ++ tableName ++ ": " ++ role ++ " references column " ++ text.quote colName ++
      " which does not exist"

variable (tableName : String) (table : Table) (cond : ConditionConfig)

/-- What is wrong with a condition's column, which is not a pattern. -/
def validateConditionColumn
    : List String :=
  match table.columns.find? fun col => col.name = cond.column with
  | none =>
    ["table " ++ tableName ++ ": condition column " ++ text.quote cond.column ++ " does not exist"]
  | some condColumn =>
    if conditionOperatorAllowedForType cond.op condColumn.typeID then []
    else ["table " ++ tableName ++ ": condition operator " ++ cond.op.text ++
      " is not supported for column " ++ text.quote cond.column]

/-- What is wrong with a condition in view of the columns of its table. -/
def validateConditionAgainstSchema
    : List String :=
  validateConditionColumn text tableName table cond ++
    missingColumns text tableName "condition value" table cond.value ++
    cond.values.flatMap (missingColumns text tableName "condition value" table)

/-- What is wrong with a group, given the columns of its table. -/
def validateGroupAgainstSchema
    (group : RedisCommandWithCondition) : List String :=
  (group.commands.flatMap fun cmd => cmd.flatMap (missingColumns text tableName "command" table)) ++
    (group.condition.map (validateConditionAgainstSchema text tableName table)).getD []

/-- What is wrong with a configuration in view of the published tables. -/
def RedisAppConfig.validateAgainstSchema (pubTables : List (String × Table))
    (cfg : RedisAppConfig) : List String :=
  cfg.tables.flatMap fun item =>
    match pubTables.lookup item.1 with
    | none => ["table " ++ item.1 ++ " is not available in publication metadata"]
    | some table => item.2.allCommands.flatMap (validateGroupAgainstSchema text item.1 table)

/-- A condition for a table in a configuration both validations accept. -/
def Accepted : Prop :=
  ∃ (rb : RedisAppConfigBuilder) (config : RedisAppConfig) (pubTables : List (String × Table)),
    rb.config = some config ∧ rb.validate text = [] ∧
    config.validateAgainstSchema text pubTables = [] ∧
    ∃ item ∈ config.tables, pubTables.lookup item.1 = some table ∧
      ∃ group ∈ item.2.allCommands, group.condition = some cond

/-- A tuple that has a value for every column of a table. -/
def CoversTable (tuple : EntryTuple V) : Prop :=
  ∃ om, tuple = .pointer (some om) ∧
    ∀ colName, table.hasColumn colName = true → ∃ value, om.get colName = some value

/-- A row whose two tuples have every column of a table. -/
structure HasAllColumns (table : Table) (entry : WriteEntry V) : Prop where
  tuple : CoversTable table entry.tuple
  prevTuple : CoversTable table entry.prevTuple

def askedTuple (operand : String) (entry : WriteEntry V) : EntryTuple V :=
  if readsOld operand then entry.prevTuple else entry.tuple

/-- In every full row, an operand resolves to the value of an existing column. -/
structure ResolvesTo (table : Table) (operand : String)
    (resolve : WriteEntry V → Except Fault (Option (Option V))) (colName : String) : Prop where
  exists_column : table.hasColumn colName = true
  value : ∀ entry, HasAllColumns table entry → ∃ value,
    (askedTuple operand entry).get colName = .ok (some value) ∧ resolve entry = .ok (some value)

/-- Operands with a placeholder resolve to the one column checked for them. -/
structure ResolvesChecked (lib : RedisLib V F) (table : Table) (cond : ConditionConfig) :
    Prop where
  column : contents cond.column.toList ≠ [] →
    @ResolvesTo V table cond.column (resolveValue cond.column) cond.column
  operands : ∀ operand ∈ cond.value :: cond.values, contents operand.toList ≠ [] →
    ∃ colName, (∀ other, other ∈ columnsFromPattern operand ↔ other = colName) ∧
      ResolvesTo table operand (resolveValueMacro lib operand) colName

/-- The operands that resolve to a table's column pass their check. -/
structure Admits (lib : RedisLib V F) (table : Table) (cond : ConditionConfig) : Prop where
  column : (∃ colName, @ResolvesTo V table cond.column (resolveValue cond.column) colName) →
    table.hasColumn cond.column = true
  operands : ∀ operand ∈ cond.value :: cond.values,
    (∃ colName, ResolvesTo table operand (resolveValueMacro lib operand) colName) →
    ∀ colName ∈ columnsFromPattern operand, table.hasColumn colName = true

/-- An operand that is one column's name in braces, without spaces. -/
structure OneColumn (operand : String) : Prop where
  braces : isMacro operand = true
  named : between operand "\x7b" ≠ ""
  plain : Plain (between operand "\x7b").toList
  single : announced (between operand "\x7b") = none
  trimmed : trimSpace (between operand "\x7b") = between operand "\x7b"
  unreserved : (hasPrefix (between operand "\x7b") "%" ||
    hasSuffix (between operand "\x7b") "%") = false

/-- A plain column and operands that are literals or one column each. -/
structure PlainOperands (cond : ConditionConfig) : Prop where
  column : isMacro cond.column = false
  operands : ∀ operand ∈ cond.value :: cond.values,
    contents operand.toList = [] ∨ OneColumn operand

section Braces

variable {operand : String}

/-- The column that an operand in braces asks for. -/
def macroColumn (operand : String) : String := trimPrefix (between operand "\x7b") "old:"

section

variable (braces : isMacro operand = true)

include braces

theorem toList_inBraces : operand.toList = braced (between operand "\x7b").toList := by
  obtain ⟨begins, ends⟩ := Bool.and_eq_true_iff.mp braces
  have start : "\x7b".toList = [openBrace] := rfl
  have spelled := spelled_between (start.trans (nil_append _).symm) (by decide) begins ends
  rwa [start, singleton_append, ← cons_append] at spelled

theorem readsOld_inBraces : readsOld operand = hasPrefix (between operand "\x7b") "old:" := by
  have ends := (Bool.and_eq_true_iff.mp braces).2
  rw [readsOld, ends, Bool.and_true, Bool.eq_iff_iff, hasPrefix, hasPrefix, toList_inBraces braces]
  generalize (between operand "\x7b").toList = name
  show (openBrace :: "old:".toList).isPrefixOf (openBrace :: (name ++ [closeBrace])) = true ↔ _
  rw [ isPrefixOf_iff_prefix, isPrefixOf_iff_prefix, cons_prefix_cons, prefix_concat_iff]
  constructor
  · -- The closing brace is not a part of the start.
    rintro ⟨-, same | before⟩
    · have member : closeBrace ∈ "old:".toList := by rw [same]; simp
      exact absurd member (by decide)
    · exact before
  · exact fun before => ⟨rfl, .inr before⟩

theorem between_old (old : hasPrefix (between operand "\x7b") "old:" = true) :
    between operand "\x7bold:" = macroColumn operand := by
  have spelled := toList_inBraces braces
  rw [macroColumn, trimPrefix, if_pos old, between, spelled]
  obtain ⟨rest, same⟩ := isPrefixOf_iff_prefix.mp old
  rw [← same]
  show String.ofList (List.dropLast (rest ++ [closeBrace])) = String.ofList rest
  rw [dropLast_concat]

theorem macroColumn_shorter : (macroColumn operand).toList.length < operand.toList.length := by
  have spelled := congrArg List.length (toList_inBraces braces)
  have kept : (macroColumn operand).toList.length ≤ (between operand "\x7b").toList.length := by
    unfold macroColumn trimPrefix
    split
    · rw [String.toList_ofList, length_drop]
      omega
    · exact le_rfl
  simp only [braced, length_append, length_cons, length_nil] at spelled
  omega

end

end Braces

section Extraction

theorem trimSpace_sublist (text : String) : (trimSpace text).toList.Sublist text.toList := by
  rw [trimSpace, String.toList_ofList]
  have front := (dropWhile_sublist isSpace (l := text.toList)).reverse
  have back := ((dropWhile_sublist isSpace).trans front).reverse
  rwa [reverse_reverse] at back

theorem trimPrefix_sublist (text start : String) :
    (trimPrefix text start).toList.Sublist text.toList := by
  unfold trimPrefix
  split
  · rw [String.toList_ofList]
    exact drop_sublist _ _
  · exact List.Sublist.refl _

theorem splitCommas_sublist {text piece : String} (member : piece ∈ splitCommas text) :
    piece.toList.Sublist text.toList := by
  obtain ⟨chars, own, rfl⟩ := List.mem_map.mp member
  have joined := sublist_flatten_of_mem own
  rw [flatten_splitOn] at joined
  rw [String.toList_ofList]
  exact joined.trans filter_sublist

variable {content name pattern placeholder : String}

theorem announced_shorter (announces : announced placeholder = some content) :
    content.toList.Sublist placeholder.toList ∧
      content.toList.length < placeholder.toList.length := by
  -- The word that announces is there, and it is not empty.
  obtain ⟨word, found, rfl⟩ := map_eq_some_iff.mp announces
  refine ⟨trimPrefix_sublist _ _, ?_⟩
  have starts := find?_some found
  have some_word : 0 < word.toList.length := by
    have listed := mem_of_find?_eq_some found
    simp only [mem_cons, not_mem_nil, or_false] at listed
    rcases listed with rfl | rfl | rfl | rfl <;> decide
  have fits := ( isPrefixOf_iff_prefix.mp starts).length_le
  rw [trimPrefix, if_pos starts, String.toList_ofList, length_drop]
  omega

theorem extracted_sublist (member : name ∈ extracted placeholder) :
    name.toList.Sublist placeholder.toList := by
  unfold extracted at member
  split at member
  · rename_i content announces
    obtain ⟨piece, own, rfl⟩ := List.mem_map.mp (mem_filter.mp member).1
    exact ((trimSpace_sublist piece).trans (splitCommas_sublist own)).trans
      (announced_shorter announces).1
  · simp only at member
    split at member
    · cases member
    · rw [mem_singleton.mp member]
      exact (trimPrefix_sublist _ _).trans (trimSpace_sublist placeholder)

theorem extracted_announced (announces : announced placeholder = some content)
    (member : name ∈ extracted placeholder) : name.toList.length < placeholder.toList.length := by
  rw [extracted, announces] at member
  obtain ⟨piece, own, rfl⟩ := List.mem_map.mp (mem_filter.mp member).1
  have kept := ((trimSpace_sublist piece).trans (splitCommas_sublist own)).length_le
  have shorter := (announced_shorter announces).2
  omega

theorem mem_columnsFromPattern (member : name ∈ columnsFromPattern pattern) :
    ∃ content ∈ contents pattern.toList, name ∈ extracted (String.ofList content) := by
  unfold columnsFromPattern at member
  rw [extract_eq] at member
  split at member
  · cases member
  · exact mem_flatMap.mp member

theorem columnsFromPattern_literal (literal : contents pattern.toList = []) :
    columnsFromPattern pattern = [] := by
  rw [eq_nil_iff_forall_not_mem]
  intro name member
  obtain ⟨content, own, -⟩ := mem_columnsFromPattern member
  rw [literal] at own
  cases own

theorem contents_braced {name : List Char} (named : name ≠ []) (plain : Plain name) :
    contents (braced name) = [name] := by
  have whole := @contents_whole name [] named plain (by simp)
  rwa [nil_append, takeWhile_nil, append_nil] at whole

end Extraction

section OneName

variable {operand : String}

theorem OneColumn.columns (one : OneColumn operand) :
    columnsFromPattern operand = [macroColumn operand] := by
  have spelled := toList_inBraces one.braces
  have named : (between operand "\x7b").toList ≠ [] := by
    intro empty
    exact one.named (String.toList_injective empty)
  have only : contents operand.toList = [(between operand "\x7b").toList] := by
    rw [spelled]
    exact contents_braced named one.plain
  unfold columnsFromPattern
  rw [extract_eq, only]
  simp only [map_cons, map_nil, String.ofList_toList, one.single, mem_singleton,
    reduceCtorEq, if_false, flatMap_cons, flatMap_nil, append_nil, extracted,
    one.trimmed, one.unreserved, Bool.false_eq_true, macroColumn]

theorem announced_not_old {placeholder content : String}
    (announces : announced placeholder = some content) : hasPrefix placeholder "old:" = false := by
  obtain ⟨word, found, -⟩ := map_eq_some_iff.mp announces
  have begins := find?_some found
  obtain ⟨rest, starts⟩ := isPrefixOf_iff_prefix.mp begins
  have listed := mem_of_find?_eq_some found
  simp only [mem_cons, not_mem_nil, or_false] at listed
  rw [hasPrefix, ← starts]
  rcases listed with rfl | rfl | rfl | rfl <;> rfl

/-- A name is trimmed if trimming keeps the column it asks for. -/
theorem trimmed_of_same {name : String}
    (same : trimPrefix name "old:" = trimPrefix (trimSpace name) "old:") :
    trimSpace name = name := by
  -- The colon in front of the column is not a space.
  have sublist := trimSpace_sublist name
  suffices long : name.toList.length ≤ (trimSpace name).toList.length from
    String.toList_injective (sublist.eq_of_length_le long)
  have lengths := congrArg (fun text => text.toList.length) same
  have kept := (trimPrefix_sublist (trimSpace name) "old:").length_le
  cases old : hasPrefix name "old:" with
  | false =>
    simp only [trimPrefix, old, Bool.false_eq_true, if_false] at lengths kept
    omega
  | true =>
    obtain ⟨rest, starts⟩ := isPrefixOf_iff_prefix.mp old
    cases still : hasPrefix (trimSpace name) "old:" with
    | true =>
      have fits := ( isPrefixOf_iff_prefix.mp still).length_le
      simp only [trimPrefix, old, still, if_true, String.toList_ofList, length_drop] at lengths
      omega
    | false =>
      have colons := count_trimSpace (c := ':') (by decide) name
      simp only [trimPrefix, old, still, if_true, Bool.false_eq_true, if_false] at same
      rw [← same, ← starts, drop_left, String.toList_ofList, count_append] at colons
      have one : "old:".toList.count ':' = 1 := by decide
      omega

/-- A checked operand in braces is the name of one column. -/
theorem oneColumn_of_checked (braces : isMacro operand = true)
    (checked : macroColumn operand ∈ columnsFromPattern operand) : OneColumn operand := by
  -- No checked column has a brace, so there is none inside.
  have spelled := toList_inBraces braces
  obtain ⟨content, own, member⟩ := mem_columnsFromPattern checked
  have plain : Plain (between operand "\x7b").toList := by
    have clean := plain_of_mem_segments (mem_contents.mp own)
    have kept := extracted_sublist member
    rw [String.toList_ofList] at kept
    have free : Plain (macroColumn operand).toList :=
      ⟨fun inside => clean.1 (kept.subset inside), fun inside => clean.2 (kept.subset inside)⟩
    unfold macroColumn trimPrefix at free
    split at free
    · rename_i old
      obtain ⟨rest, same⟩ := isPrefixOf_iff_prefix.mp old
      rw [← same, drop_left, String.toList_ofList] at free
      rw [← same]
      simp only [Plain, mem_append, not_or]
      exact ⟨⟨by decide, free.1⟩, by decide, free.2⟩
    · exact free
  have named : (between operand "\x7b").toList ≠ [] := by
    intro empty
    rw [spelled, empty] at own
    cases own
  rw [spelled, contents_braced named plain, mem_singleton] at own
  rw [own, String.ofList_toList] at member
  have single : announced (between operand "\x7b") = none := by
    cases announces : announced (between operand "\x7b") with
    | none => rfl
    | some content =>
      -- What is announced is shorter than the column that is asked for.
      have shorter := extracted_announced announces member
      rw [macroColumn, trimPrefix, if_neg (by simp [announced_not_old announces])] at shorter
      omega
  unfold extracted at member
  simp only [single] at member
  split at member
  · cases member
  · rename_i unreserved
    have trimmed := trimmed_of_same (mem_singleton.mp member)
    rw [trimmed, Bool.not_eq_true] at unreserved
    exact ⟨braces, fun empty => named (by rw [empty]; rfl), plain, single, trimmed, unreserved⟩

end OneName

section Rows

variable {table : Table} {operand : String} {entry : WriteEntry V}

/-- A tuple with every column of a table, each with a value by its name. -/
def tupleOf (table : Table) (value : String → Option V) : OrderedMap V :=
  let names := table.columns.map Column.name
  ⟨names.map value, names.map fun _ => true, names.length, ⟨names⟩⟩

/-- A row with exactly a table's columns before and after the change. -/
def rowOf (table : Table) (value : String → Option V) : WriteEntry V where
  tuple := .pointer (some (tupleOf table value))
  prevTuple := .pointer (some (tupleOf table value))
  pk := ""
  kind := .update
  table := table.name
  offset := 0

theorem get_tupleOf (table : Table) (value : String → Option V) (colName : String) :
    (tupleOf table value).get colName =
      if table.hasColumn colName = true then some (value colName) else none := by
  have known : colName ∈ table.columns.map Column.name ↔ table.hasColumn colName = true := by
    simp [Table.hasColumn]
  unfold OrderedMap.get
  cases found : (tupleOf table value).keyMap.getIndex colName with
  | none =>
    have missing := KeyMap.indexFrom_eq_none_iff.mp found
    rw [if_neg fun own => missing (known.mpr own)]
  | some index =>
    have spelled : (table.columns.map Column.name)[index]? = some colName :=
      KeyMap.getIndex_spec found
    rw [if_pos (known.mp (mem_of_getElem? spelled))]
    simp only [tupleOf, getD_eq_getElem?_getD, getElem?_map, spelled, map_some, getD_some, if_true]

theorem rowOf_complete (table : Table) (value : String → Option V) :
    HasAllColumns table (rowOf table value) := by
  have covers : CoversTable table (.pointer (some (tupleOf table value))) := by
    refine ⟨_, rfl, fun colName own => ⟨value colName, ?_⟩⟩
    rw [get_tupleOf, if_pos own]
  exact ⟨covers, covers⟩

theorem get_rowOf (table : Table) (value : String → Option V) (operand colName : String) :
    (askedTuple operand (rowOf table value)).get colName =
      .ok (if table.hasColumn colName = true then some (value colName) else none) := by
  have both : askedTuple operand (rowOf table value) = .pointer (some (tupleOf table value)) := by
    unfold askedTuple
    split <;> rfl
  rw [both, ← get_tupleOf]
  rfl

theorem HasAllColumns.asked (whole : HasAllColumns table entry) (operand : String) :
    CoversTable table (askedTuple operand entry) := by
  unfold askedTuple
  split
  · exact whole.prevTuple
  · exact whole.tuple

variable {colName : String} {resolve : WriteEntry V → Except Fault (Option (Option V))}

theorem CoversTable.get {tuple : EntryTuple V} (covers : CoversTable table tuple)
    (own : table.hasColumn colName = true) : ∃ value, tuple.get colName = .ok (some value) := by
  obtain ⟨om, rfl, values⟩ := covers
  obtain ⟨value, found⟩ := values colName own
  refine ⟨value, ?_⟩
  show Except.ok (om.get colName) = _
  rw [found]

theorem resolveValue_inBraces (braces : isMacro operand = true)
    (whole : HasAllColumns table entry) :
    resolveValue operand entry = (askedTuple operand entry).get (macroColumn operand) := by
  unfold resolveValue askedTuple
  have reads := readsOld_inBraces braces
  cases old : readsOld operand with
  | true =>
    obtain ⟨om, pointer, -⟩ := whole.prevTuple
    rw [old] at reads
    simp only [if_true, resolveOld, between_old braces reads.symm, pointer]
    rfl
  | false =>
    rw [old] at reads
    simp only [Bool.false_eq_true, if_false, braces, if_true, macroColumn, trimPrefix, ← reads]

theorem resolveValueMacro_inBraces (lib : RedisLib V F) (braces : isMacro operand = true) :
    resolveValueMacro lib operand entry = resolveValue operand entry := by
  unfold resolveValueMacro resolveValue
  rw [if_pos braces, if_pos braces]

theorem readsOld_plain (plain : isMacro operand = false) : readsOld operand = false := by
  -- The start for previous values is a start with a brace.
  rw [← Bool.not_eq_true]
  intro old
  obtain ⟨begins, ends⟩ := Bool.and_eq_true_iff.mp old
  have opens : hasPrefix operand "\x7b" = true := by
    apply isPrefixOf_iff_prefix.mpr
    exact List.IsPrefix.trans ⟨"old:".toList, rfl⟩ ( isPrefixOf_iff_prefix.mp begins)
  rw [isMacro, opens, ends] at plain
  cases plain

theorem resolveValue_plain (plain : isMacro operand = false) :
    resolveValue operand entry = (askedTuple operand entry).get operand := by
  unfold resolveValue askedTuple
  simp only [readsOld_plain plain, plain, Bool.false_eq_true, if_false]

theorem resolvesTo_of_lookup (own : table.hasColumn colName = true)
    (looks : ∀ entry, HasAllColumns table entry →
      resolve entry = (askedTuple operand entry).get colName) :
    ResolvesTo table operand resolve colName := by
  refine ⟨own, fun entry whole => ?_⟩
  obtain ⟨value, found⟩ := (whole.asked operand).get own
  exact ⟨value, found, by rw [looks entry whole, found]⟩

theorem ResolvesTo.lookup (lib : RedisLib V F) {asked : String}
    (resolves : ResolvesTo table operand resolve colName)
    (looks : ∀ entry, HasAllColumns table entry →
      resolve entry = (askedTuple operand entry).get asked) : colName = asked := by
  -- In this row, one column has a value and the others are nil.
  obtain ⟨value, found, same⟩ := resolves.value
    (rowOf table fun name => if name = colName then some (lib.ofText "") else none)
    (rowOf_complete _ _)
  rw [looks _ (rowOf_complete _ _), get_rowOf] at same
  rw [get_rowOf, if_pos resolves.exists_column, if_pos rfl] at found
  cases found
  split at same
  · by_contra other
    rw [if_neg fun equal => other equal.symm] at same
    cases same
  · cases same

end Rows

section Validation

variable {text : TextLibrary} {tableName : String} {table : Table} {cond : ConditionConfig}

/-- What the validation against the schema checks of a condition. -/
structure Checked (table : Table) (cond : ConditionConfig) : Prop where
  column : ∃ condColumn,
    table.columns.find? (fun col => col.name = cond.column) = some condColumn ∧
      conditionOperatorAllowedForType cond.op condColumn.typeID = true
  operands : ∀ operand ∈ cond.value :: cond.values, ∀ colName ∈ columnsFromPattern operand,
    table.hasColumn colName = true

theorem Checked.hasColumn (checked : Checked table cond) : table.hasColumn cond.column = true := by
  obtain ⟨condColumn, found, -⟩ := checked.column
  have named := find?_some found
  exact List.any_eq_true.mpr ⟨condColumn, mem_of_find?_eq_some found, named⟩

theorem missingColumns_eq_nil {role pattern : String} :
    missingColumns text tableName role table pattern = [] ↔
      ∀ colName ∈ columnsFromPattern pattern, table.hasColumn colName = true := by
  simp [missingColumns]

/-- A condition passes the schema validation when its checks do. -/
theorem validateConditionAgainstSchema_eq_nil :
    validateConditionAgainstSchema text tableName table cond = [] ↔ Checked table cond := by
  have column : validateConditionColumn text tableName table cond = [] ↔ ∃ condColumn,
      table.columns.find? (fun col => col.name = cond.column) = some condColumn ∧
        conditionOperatorAllowedForType cond.op condColumn.typeID = true := by
    unfold validateConditionColumn
    cases table.columns.find? fun col => col.name = cond.column with
    | none => simp
    | some condColumn => simp
  unfold validateConditionAgainstSchema
  rw [append_eq_nil_iff, append_eq_nil_iff, flatMap_eq_nil_iff, column, missingColumns_eq_nil]
  constructor
  · rintro ⟨⟨named, value⟩, values⟩
    refine ⟨named, ?_⟩
    rw [forall_mem_cons]
    exact ⟨value, fun operand member => missingColumns_eq_nil.mp (values operand member)⟩
  · rintro ⟨named, operands⟩
    rw [forall_mem_cons] at operands
    exact ⟨⟨named, operands.1⟩, fun operand member =>
      missingColumns_eq_nil.mpr (operands.2 operand member)⟩

theorem validateCondition_name {other : String} (valid : validateCondition tableName cond = []) :
    validateCondition other cond = [] := by
  -- An operator that is not known is reported for every table.
  obtain ⟨op, column, value, values⟩ := cond
  cases op with
  | other word =>
    have impossible := (append_eq_nil_iff.mp valid).2
    simp only [validateOperands] at impossible
    split at impossible <;> cases impossible
  | equal | notEqual | less | greater | lessEq | greaterEq | isIn | notIn | isNull | isNotNull
  | isDistinctFrom => simpa [validateCondition, validateOperands] using valid

theorem validateCondition_of_mem {cfg : RedisTableConfig} {group : RedisCommandWithCondition}
    (valid : cfg.validate tableName = []) (member : group ∈ cfg.allCommands)
    (conditional : group.condition = some cond) : validateCondition tableName cond = [] := by
  simp only [validate, append_eq_nil_iff, validateCommands, flatMap_eq_nil_iff] at valid
  obtain ⟨⟨⟨⟨-, resolved⟩, insert⟩, update⟩, delete⟩ := valid
  have own : validateGroup tableName group = [] := by
    simp only [allCommands, mem_append] at member
    rcases member with ((own | own) | own) | own
    · exact resolved group own
    · exact insert group own
    · exact update group own
    · exact delete group own
  unfold validateGroup at own
  split at own
  · cases own
  · simpa [conditional] using (append_eq_nil_iff.mp own).2

/-- A condition is accepted exactly when it passes both validations. -/
theorem accepted_iff :
    Accepted text table cond ↔ validateCondition tableName cond = [] ∧ Checked table cond := by
  -- Both validations go through all groups, and report nothing.
  constructor
  · rintro ⟨rb, config, pubTables, given, valid, against, item, listed, published, group, member,
      conditional⟩
    constructor
    · simp only [RedisAppConfigBuilder.validate, given, append_eq_nil_iff,
        flatMap_eq_nil_iff] at valid
      exact validateCondition_name
        (validateCondition_of_mem (valid.1.2 item listed) member conditional)
    · have tableValid := flatMap_eq_nil_iff.mp against item listed
      simp only [published] at tableValid
      have own := flatMap_eq_nil_iff.mp tableValid group member
      unfold validateGroupAgainstSchema at own
      rw [conditional] at own
      exact validateConditionAgainstSchema_eq_nil.mp (append_eq_nil_iff.mp own).2
  · -- One command with this condition makes a configuration.
    rintro ⟨valid, checked⟩
    let group : RedisCommandWithCondition := ⟨[["DEL", "k"]], some cond⟩
    let cfg : RedisTableConfig := ⟨"public.t", none, none, none, [], [group], [], [], []⟩
    refine ⟨⟨some ⟨[("public.t", cfg)], none⟩, []⟩, _, [("public.t", table)], rfl, ?_, ?_,
      ("public.t", cfg), mem_singleton_self _, rfl, group, mem_singleton_self _, rfl⟩
    · have command : validateCommand "public.t" ["DEL", "k"] = [] := by decide
      simp [RedisAppConfigBuilder.validate, validate, cfg, group,
        hasNoCommands, validateCommands, validateGroup, command,
        validateCondition_name valid]
    · have literal : columnsFromPattern "DEL" = [] ∧ columnsFromPattern "k" = [] := by decide
      have condition : validateConditionAgainstSchema text "public.t" table cond = [] :=
        validateConditionAgainstSchema_eq_nil.mpr checked
      simp [RedisAppConfig.validateAgainstSchema, cfg, group, allCommands,
        validateGroupAgainstSchema, missingColumns, literal, condition]

end Validation

/-- A table with some columns, all of which hold texts. -/
def tableWith (names : List String) : Table where
  name := ⟨"public", "t", "public.t"⟩
  columns := names.dedup.map fun name => ⟨name, 25, false, 0⟩
  pk := []
  physicalColumnsCount := 0

theorem hasColumn_tableWith {names : List String} {colName : String} :
    (tableWith names).hasColumn colName = true ↔ colName ∈ names := by
  simp [Table.hasColumn, tableWith]

theorem conditionOperatorAllowedForType_text (op : ConditionOperator) :
    conditionOperatorAllowedForType op 25 = true := by
  unfold conditionOperatorAllowedForType
  split
  · rfl
  · rfl

section Operands

variable (lib : RedisLib V F) {table : Table} {operand : String} {cond : ConditionConfig}

theorem checked_tableWith {names : List String} (named : cond.column ∈ names)
    (mentioned : ∀ operand ∈ cond.value :: cond.values, ∀ colName ∈ columnsFromPattern operand,
      colName ∈ names) : Checked (tableWith names) cond := by
  constructor
  · obtain ⟨condColumn, found⟩ : ∃ condColumn, (tableWith names).columns.find?
        (fun col => col.name = cond.column) = some condColumn := by
      rw [← isSome_iff_exists, find?_isSome]
      simpa [tableWith] using named
    refine ⟨condColumn, found, ?_⟩
    obtain ⟨name, -, rfl⟩ := List.mem_map.mp (mem_of_find?_eq_some found)
    exact conditionOperatorAllowedForType_text _
  · intro operand member colName own
    exact hasColumn_tableWith.mpr (mentioned operand member colName own)

theorem lookup_inBraces (braces : isMacro operand = true) (entry : WriteEntry V)
    (whole : HasAllColumns table entry) : resolveValueMacro lib operand entry =
      (askedTuple operand entry).get (macroColumn operand) := by
  rw [resolveValueMacro_inBraces lib braces, resolveValue_inBraces braces whole]

theorem oneColumn_of_resolves {colName : String} (checked : colName ∈ columnsFromPattern operand)
    (resolves : ResolvesTo table operand (resolveValueMacro lib operand) colName) :
    OneColumn operand := by
  -- A literal is a text also where the column is nil.
  cases braces : isMacro operand with
  | true =>
    rw [resolves.lookup lib (lookup_inBraces lib braces)] at checked
    exact oneColumn_of_checked braces checked
  | false =>
    obtain ⟨value, found, same⟩ := resolves.value (rowOf table fun _ => none) (rowOf_complete _ _)
    rw [get_rowOf, if_pos resolves.exists_column] at found
    cases found
    unfold resolveValueMacro at same
    rw [if_neg (by simp [readsOld_plain braces]), if_neg (by simp [braces])] at same
    cases same

/--
A condition that passes the first validation has its operands resolved to the columns that are
checked, and no column that it could be resolved to refused, for every table exactly in these cases.
-/
theorem validated_operands_resolve_iff (text : TextLibrary) {tableName : String}
    (valid : validateCondition tableName cond = []) :
    (∀ table, (Accepted text table cond → ResolvesChecked lib table cond) ∧
      Admits lib table cond) ↔ PlainOperands cond := by
  -- What is looked up is what was checked, as column and as operand.
  constructor
  · intro holds
    constructor
    · rw [← Bool.not_eq_true]
      intro braces
      have own := hasColumn_tableWith.mpr (mem_singleton_self (macroColumn cond.column))
      have admitted := (holds (tableWith [macroColumn cond.column])).2.column
        ⟨_, resolvesTo_of_lookup own fun entry whole => resolveValue_inBraces braces whole⟩
      have same := mem_singleton.mp (hasColumn_tableWith.mp admitted)
      have shorter := macroColumn_shorter braces
      rw [← same] at shorter
      exact lt_irrefl _ shorter
    · intro operand member
      by_cases literal : contents operand.toList = []
      · exact .inl literal
      · -- In this table, the condition passes.
        have checked : Checked (tableWith (cond.column ::
            (cond.value :: cond.values).flatMap columnsFromPattern)) cond := by
          apply checked_tableWith mem_cons_self
          intro other listed colName own
          exact mem_cons_of_mem _ (mem_flatMap.mpr ⟨other, listed, own⟩)
        have resolved := (holds _).1 (accepted_iff.mpr ⟨valid, checked⟩)
        obtain ⟨colName, only, resolves⟩ := resolved.operands operand member literal
        exact .inr (oneColumn_of_resolves lib ((only colName).mpr rfl) resolves)
  · intro plain table
    constructor
    · intro accepted
      obtain ⟨-, checked⟩ : validateCondition tableName cond = [] ∧ Checked table cond :=
        accepted_iff.mp accepted
      constructor
      · intro _
        exact resolvesTo_of_lookup checked.hasColumn fun _ _ => resolveValue_plain plain.column
      · intro operand member placeholder
        rcases plain.operands operand member with literal | one
        · exact absurd literal placeholder
        · refine ⟨macroColumn operand, fun other => by rw [one.columns, mem_singleton], ?_⟩
          apply resolvesTo_of_lookup _ (lookup_inBraces lib one.braces)
          apply checked.operands operand member
          rw [one.columns]
          exact mem_singleton_self _
    · -- A column that an operand is resolved to is the one that it looks up, so it exists.
      constructor
      · rintro ⟨colName, resolves⟩
        rw [← resolves.lookup lib fun _ _ => resolveValue_plain plain.column]
        exact resolves.exists_column
      · rintro operand member ⟨colName, resolves⟩ mentioned own
        rcases plain.operands operand member with literal | one
        · rw [columnsFromPattern_literal literal] at own
          cases own
        · rw [one.columns, mem_singleton] at own
          rw [own, ← resolves.lookup lib (lookup_inBraces lib one.braces)]
          exact resolves.exists_column

end Operands

namespace Sample

/-- Texts with nothing to escape are quoted by quotes around them. -/
def quotedLib : TextLibrary := { textLib with quote := fun text => "\"" ++ text ++ "\"" }

end Sample

/-- An old value is compared in every table that has both columns. -/
theorem validated_operands_resolve_iff_old :
    validateCondition "public.users" ⟨.isDistinctFrom, "name", "\x7bold:name\x7d", []⟩ = [] ∧
      ∀ table, Accepted Sample.quotedLib table
          ⟨.isDistinctFrom, "name", "\x7bold:name\x7d", []⟩ →
        ResolvesChecked Sample.lib table ⟨.isDistinctFrom, "name", "\x7bold:name\x7d", []⟩ := by
  have valid : validateCondition "public.users"
      ⟨.isDistinctFrom, "name", "\x7bold:name\x7d", []⟩ = [] := by decide
  have one : OneColumn "\x7bold:name\x7d" :=
    ⟨by decide, by decide, ⟨by decide, by decide⟩, by decide, by decide, by decide⟩
  have plain : PlainOperands ⟨.isDistinctFrom, "name", "\x7bold:name\x7d", []⟩ := by
    refine ⟨by decide, fun operand member => ?_⟩
    rw [mem_singleton.mp member]
    exact .inr one
  refine ⟨valid, fun table => ?_⟩
  exact ((validated_operands_resolve_iff Sample.lib Sample.quotedLib valid).mpr plain table).1

/-- A name with spaces is accepted for a column it does not look up. -/
theorem spaced_operand_accepted :
    (∃ entry, Accepted Sample.quotedLib (tableWith ["id", "name"])
        ⟨.equal, "name", "\x7b id \x7d", []⟩ ∧
      HasAllColumns (tableWith ["id", "name"]) entry ∧
      resolveValueMacro Sample.lib "\x7b id \x7d" entry = .ok none) ∧
    (∃ entry, HasAllColumns (tableWith ["id", "name"]) entry ∧
      @resolveValue (List UInt8) "\x7bid\x7d" entry = .ok (some (some [49])) ∧
      validateConditionAgainstSchema Sample.quotedLib "public.t" (tableWith ["id", "name"])
        ⟨.equal, "\x7bid\x7d", "1", []⟩ =
          ["table public.t: condition column \"\x7bid\x7d\" does not exist"]) := by
  -- Every column of the row holds the same text.
  have checked : Checked (tableWith ["id", "name"]) ⟨.equal, "name", "\x7b id \x7d", []⟩ :=
    checked_tableWith (by decide) (by decide)
  have valid : validateCondition "" ⟨.equal, "name", "\x7b id \x7d", []⟩ = [] := by decide
  let row : WriteEntry (List UInt8) := rowOf (tableWith ["id", "name"]) fun _ => some [49]
  have complete : HasAllColumns (tableWith ["id", "name"]) row := rowOf_complete _ _
  constructor
  · exact ⟨row, accepted_iff.mpr ⟨valid, checked⟩, complete, by decide⟩
  · exact ⟨row, complete, by decide, by decide⟩

end PgWalk.Redis
