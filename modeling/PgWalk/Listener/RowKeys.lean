import PgWalk.Listener.NetEffect

/-! When two rows of a table are told apart by the key string they are merged under. -/

namespace PgWalk

open List

variable {V : Type}

/-- The printed values of a tuple's primary key, in column order. -/
def renderedKey (codec : ValueCodec V) (table : Table) (data : OrderedMap V) : List String :=
  (table.pk.insertionSort Column.before).map fun col =>
    codec.sprintAny ((data.get col.name).getD none)

/-- What the colons leave of the printed values, all in one row. -/
def keyPieces (rendered : List String) : List (List Char) :=
  rendered.flatMap fun text => text.toList.splitOn ':'

theorem splitOn_intercalate_flatMap {parts : List (List Char)} (some_ : parts ≠ []) :
    ([':'].intercalate parts).splitOn ':' = parts.flatMap fun part => part.splitOn ':' := by
  -- The first separator is a place where the split falls apart.
  induction parts with
  | nil => exact absurd rfl some_
  | cons first rest ih =>
    cases rest with
    | nil => simp
    | cons second rest =>
      rw [intercalate_cons_cons, append_assoc, singleton_append,
        splitOn_append_cons_self, ih (cons_ne_nil _ _)]
      rfl

theorem intercalate_inj_iff {first second : List (List Char)} (one : first ≠ [])
    (two : second ≠ []) :
    [':'].intercalate first = [':'].intercalate second ↔
      (first.flatMap fun part => part.splitOn ':') =
        second.flatMap fun part => part.splitOn ':' := by
  -- A text is recovered from its pieces.
  rw [← splitOn_intercalate_flatMap one, ← splitOn_intercalate_flatMap two]
  constructor
  · intro same
    rw [same]
  · intro same
    rw [← @intercalate_splitOn _ ([':'].intercalate first) _ _ ':', same, intercalate_splitOn]

theorem joinKey_toList (codec : ValueCodec V) (data : OrderedMap V) (cols : List Column)
    (key colon : String) :
    ∃ text, joinKey codec (some data) key colon cols = .ok text ∧
      text.toList = key.toList ++ if cols = [] then [] else colon.toList ++
        [':'].intercalate (cols.map fun col =>
          (codec.sprintAny ((data.get col.name).getD none)).toList) := by
  induction cols generalizing key colon with
  | nil => exact ⟨key, rfl, by simp⟩
  | cons col rest ih =>
    obtain ⟨text, joined, spelled⟩ :=
      ih (key ++ (colon ++ codec.sprintAny ((data.get col.name).getD none))) ":"
    refine ⟨text, joined, spelled.trans ?_⟩
    cases rest with
    | nil => simp
    | cons next rest => simp

theorem createPK_toList (codec : ValueCodec V) (table : Table) (data : OrderedMap V) :
    ∃ text, createPK codec table (some data) = .ok text ∧
      text.toList = [':'].intercalate ((renderedKey codec table data).map String.toList) := by
  obtain ⟨text, joined, spelled⟩ :=
    joinKey_toList codec data (table.pk.insertionSort Column.before) "" ""
  refine ⟨text, joined, spelled.trans ?_⟩
  simp only [renderedKey, map_map, Function.comp_def]
  by_cases none : table.pk.insertionSort Column.before = []
  · simp [none]
  · simp [none]

theorem createPK_eq_iff (codec : ValueCodec V) (table : Table) (first second : OrderedMap V) :
    createPK codec table (some first) = createPK codec table (some second) ↔
      keyPieces (renderedKey codec table first) = keyPieces (renderedKey codec table second) := by
  obtain ⟨one, firstKey, firstText⟩ := createPK_toList codec table first
  obtain ⟨two, secondKey, secondText⟩ := createPK_toList codec table second
  have flat : ∀ rendered : List String, keyPieces rendered =
      (rendered.map String.toList).flatMap fun part => part.splitOn ':' := fun rendered => by
    simp [keyPieces, flatMap_map]
  rw [firstKey, secondKey, Except.ok.injEq, ← String.toList_inj, firstText, secondText, flat, flat]
  by_cases keyless : table.pk.insertionSort Column.before = []
  · simp [renderedKey, keyless]
  · exact intercalate_inj_iff (by simpa [renderedKey] using keyless)
      (by simpa [renderedKey] using keyless)

/--
Different rows are told apart, by their key strings and when their changes are merged, exactly when
the pieces of their key values differ.
-/
theorem rows_kept_apart_iff (rl : PGBufferedListener V) {table : Table} {rel : RelationMessage}
    (filed : (rl.getTable (makeTableName rel.schema rel.relationName)).bind
      PGTableWithConfig.table = some table) (first second : OrderedMap V) :
    ∃ one two, createPK rl.codec table (some first) = .ok one ∧
      createPK rl.codec table (some second) = .ok two ∧
      ((one ≠ two ∧ ∀ kind other prev otherPrev change otherChange,
          rl.readChange rel kind (fun _ => return some first) prev = .ok change →
          rl.readChange rel other (fun _ => return some second) otherPrev = .ok otherChange →
          change.txEntryKey ≠ otherChange.txEntryKey) ↔
        keyPieces (renderedKey rl.codec table first) ≠
          keyPieces (renderedKey rl.codec table second)) := by
  -- Both keys start with the name of the table.
  obtain ⟨one, firstKey, -⟩ := createPK_toList rl.codec table first
  obtain ⟨two, secondKey, -⟩ := createPK_toList rl.codec table second
  refine ⟨one, two, firstKey, secondKey, ?_⟩
  have keys := createPK_eq_iff rl.codec table first second
  rw [firstKey, secondKey, Except.ok.injEq] at keys
  rw [Ne, Ne, ← keys]
  refine and_iff_left_of_imp fun differ => ?_
  intro kind other prev otherPrev change otherChange read otherRead same
  have spelled : ∀ {kind : OpKind} {data : OrderedMap V} {key : String}
      {prev : TableName → Except Fault (Option (OrderedMap V))} {change : Change V},
      rl.readChange rel kind (fun _ => return some data) prev = .ok change →
      createPK rl.codec table (some data) = .ok key →
      change.txEntryKey = table.fullName ++ ":" ++ key := by
    intro kind data key prev change read keyed
    obtain ⟨_, got, read⟩ := bind_eq_ok.mp read
    cases got
    obtain ⟨prevData, -, read⟩ := bind_eq_ok.mp read
    rw [filed] at read
    simp only [keyed] at read
    cases read
    rfl
  rw [spelled read firstKey, spelled otherRead secondKey] at same
  exact differ (String.append_right_inj _ |>.mp same)

namespace Sample

/-- A table whose key has two columns. -/
def members : Table where
  name := makeTableName "public" "members"
  columns := [⟨"team", 25, true, 1⟩, ⟨"name", 25, true, 2⟩]
  pk := [⟨"team", 25, true, 1⟩, ⟨"name", 25, true, 2⟩]
  physicalColumnsCount := 2

/-- The same table as its relation message describes it. -/
def membersRelation : RelationMessage where
  relationID := 16385
  schema := "public"
  relationName := "members"
  columns := [⟨"team", 25⟩, ⟨"name", 25⟩]

def membersListener : PGBufferedListener (List UInt8) where
  codec := codec
  appName := "pg2redis"
  txOptions := ⟨false, ""⟩
  txCache := fun _ => none
  relations := fun _ => none
  tables := [("public.members", ⟨some members, none⟩)]
  relationVersion := 1
  currentXID := 7

/-- A full tuple of the table. -/
def member (team name : List UInt8) : OrderedMap (List UInt8) where
  values := [some team, some name]
  set := [true, true]
  size := 2
  keyMap := ⟨["team", "name"]⟩

end Sample

open Sample

/-- Two rows whose values contain no colons are told apart. -/
theorem rows_kept_apart_iff_plain :
    ∃ one two, createPK codec members (some (member [97] [98])) = .ok one ∧
      createPK codec members (some (member [97] [99])) = .ok two ∧
      one ≠ two := by
  obtain ⟨one, two, first, second, apart⟩ := @rows_kept_apart_iff _ membersListener
    members membersRelation rfl (member [97] [98]) (member [97] [99])
  refine ⟨one, two, first, second, (apart.mpr ?_).1⟩
  decide

/-- The keys a:b, c and a, b:c are merged into one row. -/
theorem rows_merged_across_colon :
    let first := member [97, 58, 98] [99]
    let second := member [97] [98, 58, 99]
    (∀ col ∈ members.pk, (first.get col.name).isSome ∧ (second.get col.name).isSome) ∧
      renderedKey codec members first = ["a:b", "c"] ∧
      renderedKey codec members second = ["a", "b:c"] ∧
      ∃ change other,
        membersListener.readChange membersRelation .insert
          (fun _ => return some first) (fun _ => return none) = .ok change ∧
        membersListener.readChange membersRelation .insert
          (fun _ => return some second) (fun _ => return none) = .ok other ∧
        change.pk = other.pk ∧ change.txEntryKey = other.txEntryKey := by
  refine ⟨by decide, by decide, by decide, _, _, rfl, rfl, by decide, by decide⟩

end PgWalk
