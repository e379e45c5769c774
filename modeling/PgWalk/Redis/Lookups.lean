import PgWalk.Redis.Columns
import PgWalk.Redis.Template

/-! The columns that an argument looks up at run time, and those that are read off its pattern. -/

namespace PgWalk.Redis

open RedisCompiledCommand List

variable {V F : Type}

/-- The columns an argument looks up, and whether it asks for all. -/
def RedisCompiledCommand.lookups : RedisCompiledCommand → List String × Bool
  | .literal _ => ([], false)
  | .pairsStar | .columnsStar | .jsonStar => ([], true)
  | .pairsSubset cols | .jsonSubset cols => (cols, false)
  | .diff colName => ([colName], false)
  | .template parts => (parts.filterMap TemplatePart.asksFor, false)

/-- Compilation and extraction agree in the columns and the word for all. -/
structure SameColumns (pattern : String) : Prop where
  columns : ∀ name, name ∈ (compileCommand pattern).lookups.1 ↔
    name ∈ (extractColumnsFromPlaceholder pattern).1
  all : (compileCommand pattern).lookups.2 = (extractColumnsFromPlaceholder pattern).2

def Segment.content? : Segment → Option (List Char)
  | .literal _ => none
  | .placeholder content => some content

def contents (text : List Char) : List (List Char) := (segments text).filterMap Segment.content?

/-- The columns that are read off a placeholder, unless it asks for all. -/
def extracted (placeholder : String) : List String :=
  match announced placeholder with
  | some content => ((splitCommas content).map trimSpace).filter (· ≠ "")
  | none =>
    let name := trimSpace placeholder
    if hasPrefix name "%" || hasSuffix name "%" then [] else [trimPrefix name "old:"]

/--
Whether a placeholder of a template means the same at run time as where columns are read off it.
-/
def alike (content : List Char) : Bool :=
  let name := trimSpace (String.ofList content)
  reserved content ||
    (announced (String.ofList content)).isNone && !(hasPrefix name "%" || hasSuffix name "%")

/--
In a template, no placeholder asks for all columns, and the placeholders that only one side sees or
that both see differently ask for nothing that the other side does not ask for as well.
-/
structure Covered (pattern : List Char) : Prop where
  some_columns : ∀ content ∈ contents pattern, announced (String.ofList content) ≠ some "*"
  looked : ∀ content ∈ contents (marked pattern),
    ¬ (content ∈ contents pattern ∧ alike content = true) →
    ∀ name, (placeholderTemplatePart content).asksFor = some name →
      ∃ other ∈ contents pattern, name ∈ extracted (String.ofList other)
  read : ∀ content ∈ contents pattern,
    ¬ (content ∈ contents (marked pattern) ∧ alike content = true) →
    ∀ name ∈ extracted (String.ofList content),
      ∃ other ∈ contents (marked pattern), (placeholderTemplatePart other).asksFor = some name

/-- The columns of an argument that is one list, none of them empty. -/
def ListsColumns (colsStr : String) : Prop :=
  closeBrace ∉ colsStr.toList ∧ "" ∉ splitPlaceholderColumns colsStr

/-- The column of a difference is one, not the word for all. -/
def NamesColumn (colName : String) : Prop :=
  closeBrace ∉ colName.toList ∧ ',' ∉ colName.toList ∧ trimSpace colName ≠ "" ∧ colName ≠ "*"

/-- The patterns for which the two ways to find columns agree. -/
def ColumnsAgree (pattern : String) : Prop :=
  if pattern ∈ ["\x7bpairs:*\x7d", "\x7bcolumns:*\x7d", "\x7bjson:*\x7d"] then True
  else match wholeForm pattern "\x7bpairs:" with
  | some colsStr => ListsColumns colsStr
  | none =>
    match wholeForm pattern "\x7bjson:" with
    | some colsStr => ListsColumns colsStr
    | none =>
      match wholeForm pattern "\x7bdiff:" with
      | some colName => NamesColumn colName
      | none => Covered pattern.toList

theorem placeholders_eq (text : String) :
    placeholders text = (contents text.toList).map String.ofList := by
  rw [placeholders, contents, map_filterMap]
  apply filterMap_congr
  intro part _
  cases part <;> rfl

/-- All columns are read, or those that are named. -/
theorem columnsOf_eq (cols : List String) (names : List String) :
    columnsOf cols names =
      if some "*" ∈ names.map announced then ([], true)
      else (cols ++ names.flatMap extracted, false) := by
  induction names generalizing cols with
  | nil => simp [columnsOf]
  | cons placeholder rest ih =>
    rw [columnsOf, map_cons, flatMap_cons]
    cases announces : announced placeholder with
    | none =>
      simp only [extracted, announces, mem_cons, reduceCtorEq, false_or]
      split <;> rw [ih] <;> simp
    | some content =>
      by_cases all : content = "*"
      · simp [all]
      · have other : some "*" ≠ some content := by simpa using fun same => all same.symm
        simp only [if_neg all, extracted, announces, mem_cons, other, false_or]
        rw [ih]
        simp

theorem extract_eq (pattern : String) :
    extractColumnsFromPlaceholder pattern =
      if some "*" ∈ (contents pattern.toList).map (fun c => announced (String.ofList c))
      then ([], true)
      else ((contents pattern.toList).flatMap fun c => extracted (String.ofList c), false) := by
  rw [extractColumnsFromPlaceholder, placeholders_eq, columnsOf_eq, map_map]
  simp only [nil_append, flatMap_map]
  rfl

variable {content front text : List Char} {colsStr pattern start : String} {c last : Char}

theorem mem_contents : content ∈ contents text ↔ .placeholder content ∈ segments text := by
  rw [contents, mem_filterMap]
  constructor
  · rintro ⟨part, member, own⟩
    cases part with
    | literal text => cases own
    | placeholder other =>
      cases own
      exact member
  · intro member
    exact ⟨_, member, rfl⟩

/-- A template looks up what its placeholders ask for. -/
theorem mem_lookups_template {pattern : List Char} {name : String} :
    name ∈ (compileTemplateCommand pattern).lookups.1 ↔
      ∃ content ∈ contents pattern, (placeholderTemplatePart content).asksFor = some name := by
  simp only [mem_contents]
  unfold compileTemplateCommand
  simp only
  split
  · -- Without placeholders nothing is looked up.
    rename_i literals
    constructor
    · intro member
      cases member
    · rintro ⟨content, member, -⟩
      have impossible := all_eq_true.mp literals _ member
      cases impossible
  · rw [lookups, mem_filterMap]
    constructor
    · rintro ⟨part, member, asked⟩
      obtain ⟨own, inside, rfl⟩ := mem_map.mp member
      cases own with
      | literal text => cases asked
      | placeholder content => exact ⟨content, inside, asked⟩
    · rintro ⟨content, member, asked⟩
      exact ⟨_, mem_map_of_mem member, asked⟩

theorem lookups_template_all (pattern : List Char) :
    (compileTemplateCommand pattern).lookups.2 = false := by
  unfold compileTemplateCommand
  simp only
  split <;> rfl

theorem extracted_of_alike (same : alike content = true) :
    extracted (String.ofList content) = (placeholderTemplatePart content).asksFor.toList := by
  rw [asksFor_placeholder]
  by_cases word : reserved content = true
  · -- The reserved words are between percent signs.
    rw [if_pos word]
    simp only [reserved, decide_eq_true_eq, mem_cons, not_mem_nil, or_false] at word
    rcases word with text | text | text | text <;> rw [text] <;> decide
  · rw [if_neg word]
    simp only [alike, word, Bool.false_or, Bool.and_eq_true, Option.isNone_iff_eq_none,
      Bool.not_eq_true'] at same
    simp [extracted, same.1, same.2]

/-- In a template columns agree exactly when each way covers the other. -/
theorem sameColumns_template (template : IsTemplate pattern) :
    SameColumns pattern ↔ Covered pattern.toList := by
  -- The template knows no word for all columns.
  have looked : ∀ name, name ∈ (compileCommand pattern).lookups.1 ↔
      ∃ content ∈ contents (marked pattern.toList),
        (placeholderTemplatePart content).asksFor = some name := fun name => by
    rw [compileCommand_template template, mem_lookups_template]
  have flag : (compileCommand pattern).lookups.2 = false := by
    rw [compileCommand_template template, lookups_template_all]
  by_cases star : some "*" ∈ (contents pattern.toList).map fun c => announced (String.ofList c)
  · -- A placeholder that asks for all columns is the name of a column at run time.
    constructor
    · intro same
      have all := same.all
      rw [flag, extract_eq, if_pos star] at all
      cases all
    · intro covered
      obtain ⟨content, member, asks⟩ := mem_map.mp star
      exact absurd asks (covered.some_columns content member)
  · have read : extractColumnsFromPlaceholder pattern = _ :=
      (extract_eq pattern).trans (if_neg star)
    constructor
    · intro same
      refine ⟨?_, ?_, ?_⟩
      · intro content member asks
        exact star (mem_map.mpr ⟨content, member, asks⟩)
      · intro content member _ name asked
        have found := (same.columns name).mp ((looked name).mpr ⟨content, member, asked⟩)
        rw [read] at found
        exact mem_flatMap.mp found
      · intro content member _ name found
        apply (looked name).mp
        apply (same.columns name).mpr
        rw [read]
        exact mem_flatMap.mpr ⟨content, member, found⟩
    · intro covered
      refine ⟨fun name => ?_, by rw [flag, read]⟩
      rw [looked, read, mem_flatMap]
      constructor
      · -- A placeholder that both sides see alike covers itself.
        rintro ⟨content, member, asked⟩
        by_cases both : content ∈ contents pattern.toList ∧ alike content = true
        · exact ⟨content, both.1, by rw [extracted_of_alike both.2, asked]; simp⟩
        · exact covered.looked content member both name asked
      · rintro ⟨content, member, found⟩
        by_cases both : content ∈ contents (marked pattern.toList) ∧ alike content = true
        · rw [extracted_of_alike both.2, Option.mem_toList] at found
          exact ⟨content, both.1, found⟩
        · exact covered.read content member both name found

/-- A text with a start and a closing brace has something between. -/
theorem spelled_between {text : String} (starts : start.toList = front ++ [last])
    (other : last ≠ closeBrace) (begins : hasPrefix text start = true)
    (ends : hasSuffix text "\x7d" = true) :
    text.toList = start.toList ++ ((between text start).toList ++ [closeBrace]) := by
  -- The closing brace is behind the start, which ends with none.
  obtain ⟨rest, same⟩ := isPrefixOf_iff_prefix.mp begins
  obtain ⟨before, closing⟩ := isSuffixOf_iff_suffix.mp ends
  have close : "\x7d".toList = [closeBrace] := rfl
  rw [close] at closing
  have behind : ∃ cols, rest = cols ++ [closeBrace] := by
    rcases eq_nil_or_concat rest with rfl | ⟨cols, final, rfl⟩
    · rw [append_nil, starts] at same
      rw [← same] at closing
      exact absurd (append_inj_right' closing rfl) (by simpa using other.symm)
    · refine ⟨cols, ?_⟩
      rw [← same, concat_eq_append, ← append_assoc] at closing
      rw [concat_eq_append, append_inj_right' closing rfl]
  obtain ⟨cols, rfl⟩ := behind
  rw [between, ← same, drop_left, dropLast_concat, String.toList_ofList]

theorem wholeForm_eq_some (starts : start.toList = front ++ [last]) (other : last ≠ closeBrace)
    (whole : wholeForm pattern start = some colsStr) :
    pattern.toList = start.toList ++ (colsStr.toList ++ [closeBrace]) ∧
      openBrace ∉ colsStr.toList := by
  unfold wholeForm at whole
  split at whole
  · rename_i form
    obtain ⟨begins, ends, clean⟩ := form
    cases whole
    exact ⟨spelled_between starts other begins ends, clean⟩
  · cases whole

theorem contents_of_noOpen (noOpen : openBrace ∉ text) : contents text = [] := by
  have none : ∀ literal, (scan literal none text).filterMap Segment.content? = [] := by
    induction text with
    | nil =>
      intro literal
      cases literal <;> rfl
    | cons c rest ih =>
      intro literal
      simp only [mem_cons, not_or] at noOpen
      rw [scan, if_neg (Ne.symm noOpen.1)]
      split
      · exact ih noOpen.2 _
      · exact ih noOpen.2 _
  exact none []

theorem scan_name {name : List Char} (plain : Plain name) (literal content rest : List Char) :
    scan literal (some content) (name ++ rest) = scan literal (some (content ++ name)) rest := by
  induction name generalizing content with
  | nil => rw [nil_append, append_nil]
  | cons c later ih =>
    obtain ⟨free, clean⟩ := plain_cons_iff.mp plain
    simp only [cons_append, scan]
    rw [if_neg free.1, if_neg free.2, ih clean, append_assoc, singleton_append]

/-- Without another opening brace the first closing one ends. -/
theorem contents_whole {word cols : List Char} (some_word : word ≠ []) (plain : Plain word)
    (noOpen : openBrace ∉ cols) :
    contents (openBrace :: (word ++ (cols ++ [closeBrace]))) =
      [word ++ cols.takeWhile noBrace] := by
  -- The first brace of the columns is a closing one.
  obtain ⟨back, cut, clean⟩ : ∃ back,
      cols ++ [closeBrace] = cols.takeWhile noBrace ++ closeBrace :: back ∧ openBrace ∉ back := by
    have split : cols.takeWhile noBrace ++ cols.dropWhile noBrace = cols :=
      takeWhile_append_dropWhile
    cases later : cols.dropWhile noBrace with
    | nil =>
      rw [later, append_nil] at split
      exact ⟨[], by rw [split], by simp⟩
    | cons c rest =>
      have brace : noBrace c = false := by
        have stops := head?_dropWhile_not noBrace cols
        rw [later] at stops
        simpa using stops
      rw [later] at split
      have inside : ∀ d ∈ c :: rest, d ∈ cols := by
        intro d member
        rw [← split]
        exact mem_append_right _ member
      rcases brace_cases brace with rfl | rfl
      · exact absurd (inside _ mem_cons_self) noOpen
      · refine ⟨rest ++ [closeBrace], ?_, ?_⟩
        · conv_lhs => rw [← split]
          simp
        · intro member
          rcases mem_append.mp member with own | last
          · exact noOpen (inside _ (mem_cons_of_mem _ own))
          · exact absurd (mem_singleton.mp last) (by decide)
  have whole : Plain (word ++ cols.takeWhile noBrace) := by
    have taken := plain_takeWhile cols
    simp only [Plain, mem_append, not_or]
    exact ⟨⟨plain.1, taken.1⟩, plain.2, taken.2⟩
  obtain ⟨first, others, same⟩ := exists_cons_of_ne_nil
    (append_ne_nil_of_left_ne_nil some_word (cols.takeWhile noBrace))
  rw [contents, cut, ← append_assoc, segments, scan, if_pos rfl,
    show ([] : List Char) ++ pendingText none = [] from rfl, scan_name whole, nil_append, same]
  have rest := contents_of_noOpen clean
  rw [contents, segments] at rest
  simp only [scan]
  rw [if_neg (by decide), if_pos trivial]
  simp [literalSegment, Segment.content?, rest]

theorem flatten_splitOn (text : List Char) :
    (text.splitOn ',').flatten = text.filter fun c => c ≠ ',' := by
  induction text with
  | nil => simp
  | cons c rest ih =>
    rw [splitOn_cons_eq_if_modifyHead]
    by_cases comma : c = ','
    · simp [comma, ih]
    · -- The character joins the first piece, which is there even if it is empty.
      have unequal : ¬ (c == ',') = true := by simpa using comma
      obtain ⟨first, others, pieces⟩ := exists_cons_of_ne_nil (splitOn_ne_nil ',' rest)
      rw [if_neg unequal, pieces]
      rw [pieces, flatten_cons] at ih
      simp [comma, ih]

theorem mem_trimSpace (kept : isSpace c = false) {text : String} :
    c ∈ (trimSpace text).toList ↔ c ∈ text.toList := by
  rw [← count_pos_iff, ← count_pos_iff, count_trimSpace kept]

theorem mem_splitPlaceholderColumns (kept : isSpace c = false) :
    (∃ col ∈ splitPlaceholderColumns colsStr, c ∈ col.toList) ↔ c ∈ colsStr.toList ∧ c ≠ ',' := by
  have pieces : (∃ piece ∈ colsStr.toList.splitOn ',', c ∈ piece) ↔
      c ∈ colsStr.toList ∧ c ≠ ',' := by
    have same := congrArg (c ∈ ·) (flatten_splitOn colsStr.toList)
    simpa using same
  rw [← pieces]
  constructor
  · rintro ⟨col, listed, inside⟩
    simp only [splitPlaceholderColumns, splitCommas, map_map] at listed
    obtain ⟨piece, own, rfl⟩ := mem_map.mp listed
    exact ⟨piece, own, by simpa [mem_trimSpace kept] using inside⟩
  · rintro ⟨piece, own, inside⟩
    refine ⟨trimSpace (String.ofList piece), ?_, by simpa [mem_trimSpace kept] using inside⟩
    simp only [splitPlaceholderColumns, splitCommas, map_map]
    exact mem_map.mpr ⟨piece, own, rfl⟩

theorem announced_word {word : String} (listed : word ∈ ["pairs:", "json:", "diff:"])
    (name : List Char) :
    announced (String.ofList (word.toList ++ name)) = some (String.ofList name) := by
  simp only [mem_cons, not_mem_nil, or_false] at listed
  rcases listed with rfl | rfl | rfl <;> simp [announced, hasPrefix, trimPrefix]

/-- A pattern that is one placeholder, with columns behind its word. -/
structure WholePattern (pattern colsStr : String) (word : List Char) : Prop where
  some_word : word ≠ []
  plain : Plain word
  announces : ∀ name, announced (String.ofList (word ++ name)) = some (String.ofList name)
  spelled : pattern.toList = openBrace :: (word ++ (colsStr.toList ++ [closeBrace]))
  noOpen : openBrace ∉ colsStr.toList

/-- The forms that are compiled on their own are such patterns. -/
theorem WholePattern.of_form {pattern start colsStr word : String}
    (listed : word ∈ ["pairs:", "json:", "diff:"])
    (starts : start.toList = openBrace :: word.toList)
    (form : wholeForm pattern start = some colsStr) :
    WholePattern pattern colsStr word.toList := by
  -- Each of the words ends with a colon.
  have announces := announced_word listed
  simp only [mem_cons, not_mem_nil, or_false] at listed
  obtain ⟨front, ending⟩ : ∃ front, start.toList = front ++ [':'] := by
    rw [starts]
    rcases listed with rfl | rfl | rfl
    · exact ⟨openBrace :: "pairs".toList, rfl⟩
    · exact ⟨openBrace :: "json".toList, rfl⟩
    · exact ⟨openBrace :: "diff".toList, rfl⟩
  have clean : word.toList ≠ [] ∧ Plain word.toList := by
    rcases listed with rfl | rfl | rfl <;> exact ⟨by decide, by decide, by decide⟩
  obtain ⟨spelled, noOpen⟩ := wholeForm_eq_some ending (by decide) form
  rw [starts, cons_append] at spelled
  exact ⟨clean.1, clean.2, announces, spelled, noOpen⟩

section Whole

variable {pattern colsStr : String} {word : List Char} (whole : WholePattern pattern colsStr word)

include whole

theorem WholePattern.ne_star {text : String} (differs : pattern ≠ text)
    (form : text.toList = openBrace :: (word ++ ("*".toList ++ [closeBrace]))) :
    colsStr ≠ "*" := by
  rintro rfl
  exact differs (String.toList_injective (whole.spelled.trans form.symm))

theorem extract_whole :
    let name := String.ofList (colsStr.toList.takeWhile noBrace)
    extractColumnsFromPlaceholder pattern =
      if name = "*" then ([], true)
      else ((splitPlaceholderColumns name).filter (· ≠ ""), false) := by
  have only := contents_whole whole.some_word whole.plain whole.noOpen
  rw [extract_eq, whole.spelled, only]
  simp only [map_cons, map_nil, whole.announces, mem_singleton, Option.some.injEq,
    flatMap_cons, flatMap_nil, append_nil, extracted, splitPlaceholderColumns]
  by_cases star : String.ofList (colsStr.toList.takeWhile noBrace) = "*"
  · rw [if_pos star, if_pos star.symm]
  · rw [if_neg star, if_neg fun same => star same.symm]

/-- An extracted column has no brace and no comma. -/
theorem extract_whole_chars {col : String}
    (member : col ∈ (extractColumnsFromPlaceholder pattern).1) :
    closeBrace ∉ col.toList ∧ ',' ∉ col.toList := by
  rw [extract_whole whole] at member
  split at member
  · cases member
  · simp only [mem_filter] at member
    have own := member.1
    have chars : ∀ c, isSpace c = false → c ∈ col.toList →
        c ∈ colsStr.toList.takeWhile noBrace ∧ c ≠ ',' := by
      intro c kept inside
      have found := (mem_splitPlaceholderColumns kept).mp ⟨col, own, inside⟩
      rwa [String.toList_ofList] at found
    constructor
    · intro inside
      exact (plain_takeWhile _).2 (chars closeBrace (by decide) inside).1
    · intro inside
      exact (chars ',' (by decide) inside).2 rfl

theorem extract_whole_plain (noClose : closeBrace ∉ colsStr.toList) :
    extractColumnsFromPlaceholder pattern =
      if colsStr = "*" then ([], true)
      else ((splitPlaceholderColumns colsStr).filter (· ≠ ""), false) := by
  have unbroken : String.ofList (colsStr.toList.takeWhile noBrace) = colsStr := by
    have clean : Plain colsStr.toList := ⟨whole.noOpen, noClose⟩
    have taken := @takeWhile_append_of_pos _ noBrace colsStr.toList [] fun _ => clean.noBrace
    rw [append_nil, takeWhile_nil, append_nil] at taken
    rw [taken, String.ofList_toList]
  have found := extract_whole whole
  rwa [unbroken] at found

/-- A list of columns is extracted when none of them is empty. -/
theorem sameColumns_listing (some_columns : colsStr ≠ "*")
    (compiled : (compileCommand pattern).lookups = (splitPlaceholderColumns colsStr, false)) :
    SameColumns pattern ↔ ListsColumns colsStr := by
  by_cases closes : closeBrace ∈ colsStr.toList
  · -- The column with the brace is looked up, and the one before the brace is extracted.
    constructor
    · intro same
      obtain ⟨col, listed, inside⟩ :=
        (mem_splitPlaceholderColumns (by decide)).mpr ⟨closes, by decide⟩
      have found := (same.columns col).mp (by rw [compiled]; exact listed)
      exact absurd inside (extract_whole_chars whole found).1
    · rintro ⟨clean, -⟩
      exact absurd closes clean
  · have found := extract_whole_plain whole closes
    rw [if_neg some_columns] at found
    constructor
    · intro same
      refine ⟨closes, fun empty => ?_⟩
      have kept := (same.columns "").mp (by rw [compiled]; exact empty)
      rw [found] at kept
      simp at kept
    · rintro ⟨-, named⟩
      refine ⟨fun name => ?_, by rw [compiled, found]⟩
      rw [compiled, found, mem_filter]
      constructor
      · intro listed
        refine ⟨listed, ?_⟩
        simp only [ne_eq, decide_eq_true_eq]
        rintro rfl
        exact named listed
      · exact fun kept => kept.1

/-- The column of a difference is extracted when it is one and has a name. -/
theorem sameColumns_diff
    (compiled : (compileCommand pattern).lookups = ([trimSpace colsStr], false)) :
    SameColumns pattern ↔ NamesColumn colsStr := by
  have asked : SameColumns pattern →
      trimSpace colsStr ∈ (extractColumnsFromPlaceholder pattern).1 := fun same =>
    (same.columns _).mp (by rw [compiled]; exact mem_singleton_self _)
  constructor
  · intro same
    have chars := extract_whole_chars whole (asked same)
    rw [mem_trimSpace (by decide), mem_trimSpace (by decide)] at chars
    have found := extract_whole_plain whole chars.1
    refine ⟨chars.1, chars.2, ?_, ?_⟩
    · intro empty
      have kept := asked same
      rw [found] at kept
      split at kept
      · cases kept
      · simp [empty] at kept
    · intro star
      have all := same.all
      rw [compiled, found, if_pos star] at all
      cases all
  · rintro ⟨noClose, noComma, named, some_columns⟩
    have found := extract_whole_plain whole noClose
    have one : splitPlaceholderColumns colsStr = [trimSpace colsStr] := by
      rw [splitPlaceholderColumns, splitCommas, splitOn_eq_singleton noComma]
      simp
    rw [if_neg some_columns, one] at found
    refine ⟨fun name => ?_, by rw [compiled, found]⟩
    rw [compiled, found]
    simp [named]

end Whole

/--
The columns that an argument looks up at run time are those that are read off its pattern exactly in
these cases.
-/
theorem columns_extracted_iff (pattern : String) : SameColumns pattern ↔ ColumnsAgree pattern := by
  -- The forms are tried as in the compilation, the template last.
  unfold ColumnsAgree
  by_cases star : pattern ∈ ["\x7bpairs:*\x7d", "\x7bcolumns:*\x7d", "\x7bjson:*\x7d"]
  · rw [if_pos star]
    refine iff_of_true ?_ trivial
    have same : (compileCommand pattern).lookups = extractColumnsFromPlaceholder pattern := by
      simp only [mem_cons, not_mem_nil, or_false] at star
      rcases star with rfl | rfl | rfl <;> decide
    exact ⟨fun name => by rw [same], by rw [same]⟩
  · rw [if_neg star]
    simp only [mem_cons, not_mem_nil, or_false, not_or] at star
    cases pairs : wholeForm pattern "\x7bpairs:" with
    | some colsStr =>
      have whole := @WholePattern.of_form _ _ _ "pairs:" (by decide) rfl pairs
      apply sameColumns_listing whole (whole.ne_star star.1 rfl)
      rw [compileCommand, if_neg star.1, pairs]
      rfl
    | none =>
      cases json : wholeForm pattern "\x7bjson:" with
      | some colsStr =>
        have whole := @WholePattern.of_form _ _ _ "json:" (by decide) rfl json
        apply sameColumns_listing whole (whole.ne_star star.2.2 rfl)
        rw [compileCommand, if_neg star.1, pairs, if_neg star.2.1, if_neg star.2.2, json]
        rfl
      | none =>
        cases diff : wholeForm pattern "\x7bdiff:" with
        | some colName =>
          have whole := @WholePattern.of_form _ _ _ "diff:" (by decide) rfl diff
          apply sameColumns_diff whole
          rw [compileCommand, if_neg star.1, pairs, if_neg star.2.1, if_neg star.2.2, json, diff]
          rfl
        | none =>
          apply sameColumns_template
          simpa [IsTemplate] using ⟨star, pairs, json, diff⟩

/-- A placeholder in doubled braces is extracted but not looked up. -/
theorem escaped_column_extracted :
    (compileCommand "\x7b\x7bid\x7d\x7d").lookups = ([], false) ∧
      extractColumnsFromPlaceholder "\x7b\x7bid\x7d\x7d" = (["id"], false) ∧
      (compileCommand "k:\x7bpairs:id,name\x7d").lookups = (["pairs:id,name"], false) ∧
      extractColumnsFromPlaceholder "k:\x7bpairs:id,name\x7d" = (["id", "name"], false) ∧
      ¬ SameColumns "\x7b\x7bid\x7d\x7d" := by
  refine ⟨by decide, by decide, by decide, by decide, fun same => ?_⟩
  have looked := (same.columns "id").mpr (by decide)
  exact absurd looked (by decide)

end PgWalk.Redis
