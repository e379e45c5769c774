import PgWalk.Sqs.Routing
import PgWalk.Sqs.Writer
import PgWalk.Wal.Reading

/-! Message groups: what a pattern is made of, what SQS takes, and what validation lets through. -/

namespace PgWalk.Sqs

open SQSQueueMapper TableQueueConfig List

variable {V F : Type}

/-- A piece of a group pattern: a character, or the name in a macro. -/
inductive Part
  | literal (c : Char)
  | inBraces (name : String)
deriving DecidableEq

/-- The pieces of a pattern, with what was read since a macro's start. -/
def parts : Option (List Char) → List Char → List Part
  | none, '$' :: '\x7b' :: rest => parts (some []) rest
  | none, c :: rest => .literal c :: parts none rest
  | none, [] => []
  -- The expression asks for a name, so empty braces stay as they are.
  | some [], '\x7d' :: rest =>
    .literal '$' :: .literal '\x7b' :: .literal '\x7d' :: parts none rest
  | some (first :: read), '\x7d' :: rest =>
    .inBraces (String.ofList (first :: read)) :: parts none rest
  | some read, c :: rest => parts (some (read ++ [c])) rest
  -- A macro without an end is none.
  | some read, [] => .literal '$' :: .literal '\x7b' :: read.map .literal

variable (value : String → String)

def Part.render : Part → List Char
  | .literal c => [c]
  | .inBraces name => (value name).toList

def Part.name : Part → Option String
  | .literal _ => none
  | .inBraces name => some name

/-- The macros of a pattern, as the regular expression finds them. -/
def findMacros (pattern : String) : List String :=
  (parts none pattern.toList).filterMap Part.name

theorem flatMap_literal (text : List Char) :
    (text.map Part.literal).flatMap (Part.render value) = text := by
  induction text with
  | nil => rfl
  | cons c rest ih =>
    rw [map_cons, flatMap_cons, ih]
    rfl

/-- Replacing the macros of a pattern is rendering its pieces one by one. -/
theorem replaceMacros_eq (reading : Option (List Char)) (text : List Char) :
    replaceMacros value reading text = (parts reading text).flatMap (Part.render value) := by
  -- The two follow the pattern in the same way, so that their cases are the same.
  induction reading, text using parts.induct with
  | case1 rest ih => rw [replaceMacros, parts, ih]
  | case2 c rest noStart ih =>
    rw [replaceMacros, parts, ih]
    · rfl
    · exact noStart
    · exact noStart
  | case3 => rfl
  | case4 rest ih | case5 rest first read ih =>
    rw [replaceMacros, parts, ih]
    rfl
  | case6 read c rest notEmpty noEnd ih =>
    rw [replaceMacros, parts, ih]
    · exact notEmpty
    · exact noEnd
    · exact notEmpty
    · exact noEnd
  | case7 read =>
    rw [replaceMacros, parts, flatMap_cons, flatMap_cons, flatMap_literal]
    rfl

/-- The names that stand for something else than a column. -/
def isSpecial (name : String) : Bool :=
  name = "%schema%" ∨ name = "%table%" ∨ name = "%xid%"

/-- A character that SQS takes in an identifier. -/
def allowed (c : Char) : Bool := 33 ≤ c.toNat ∧ c.toNat ≤ 126

/-- How many characters of a text SQS takes. -/
def allowedCount (text : String) : Nat := text.toList.countP allowed

/-- An identifier that SQS takes. -/
def ValidAWSID (awsID : String) : Prop :=
  1 ≤ awsID.length ∧ awsID.length ≤ 128 ∧ ∀ c ∈ awsID.toList, allowed c

section Valid

variable (lib : SqsLib V F) (entry : WriteEntry V) (om : OrderedMap V) (xid : Nat)

/-- What pattern and table name bring in unchecked can be sent. -/
def Part.Clean : Part → Prop
  | .literal c => allowed c
  | .inBraces name =>
    (name = "%schema%" → ∀ c ∈ entry.table.schema.toList, allowed c) ∧
      (name = "%table%" → ∀ c ∈ entry.table.name.toList, allowed c)

/-- Whether a piece can be sent is read off its characters. -/
instance (part : Part) : Decidable (part.Clean entry) :=
  match part with
  | .literal c => inferInstanceAs (Decidable (allowed c = true))
  | .inBraces name => decidable_of_iff
    ((name = "%schema%" → entry.table.schema.toList.all allowed = true) ∧
      (name = "%table%" → entry.table.name.toList.all allowed = true))
    (by simp [Part.Clean, all_eq_true])

/-- How many characters the value of a column takes in a group. -/
def columnSize : Option V → Nat
  | none => 0
  | some value => min 128 (allowedCount (lib.sprint value))

/-- How many characters a piece takes in a group. -/
def Part.size : Part → Nat
  | .literal _ => 1
  | .inBraces name =>
    if name = "%schema%" then entry.table.schema.length
    else if name = "%table%" then entry.table.name.length
    else if name = "%xid%" then (toString xid).length
    else
      match om.get name with
      | some value => columnSize lib value
      | none => min 128 (allowedCount ("$\x7b" ++ name ++ "\x7d"))

variable {c : Char}

theorem allowed_of_mem_toString (member : c ∈ (toString xid).toList) : allowed c := by
  -- The digits lie within what is allowed.
  have digits : (toString xid).toList = Nat.toDigits 10 xid := by
    rw [Nat.toString_eq_repr, Nat.repr_eq_ofList_toDigits, String.toList_ofList]
  rw [digits] at member
  have digit := Nat.isDigit_of_mem_toDigits (by decide) (by decide) member
  rw [Char.isDigit, Bool.and_eq_true, decide_eq_true_eq, decide_eq_true_eq] at digit
  have lower : '0'.val.toNat ≤ c.val.toNat := digit.1
  have upper : c.val.toNat ≤ '9'.val.toNat := digit.2
  have zero : '0'.val.toNat = 48 := rfl
  have nine : '9'.val.toNat = 57 := rfl
  have same : c.toNat = c.val.toNat := rfl
  simp only [allowed, decide_eq_true_eq]
  omega

theorem allowed_of_mem_wellFormAWSID {text : String}
    (member : c ∈ (wellFormAWSID text).toList) : allowed c := by
  rw [wellFormAWSID, String.toList_ofList] at member
  have kept := (mem_filter.mp (mem_of_mem_take member)).2
  exact kept

theorem length_wellFormAWSID (text : String) :
    (wellFormAWSID text).length = min 128 (allowedCount text) := by
  rw [wellFormAWSID, String.length_ofList, length_take, allowedCount, countP_eq_length_filter]
  rfl

/-- A part is allowed when its names are clean. -/
theorem render_allowed_iff (part : Part) :
    (∀ c ∈ part.render (macroValue lib entry om xid), allowed c) ↔ part.Clean entry := by
  -- The names of schema and table are put in as they are.
  cases part with
  | literal c => simp [Part.render, Part.Clean]
  | inBraces name =>
    simp only [Part.render, Part.Clean, macroValue]
    by_cases schema : name = "%schema%"
    · simp [schema]
    · by_cases table : name = "%table%"
      · simp [table]
      · rw [if_neg schema, if_neg table]
        refine iff_of_true ?_ ⟨fun same => absurd same schema, fun same => absurd same table⟩
        intro c member
        split at member
        · exact allowed_of_mem_toString xid member
        · split at member
          · cases member
          · exact allowed_of_mem_wellFormAWSID member
          · exact allowed_of_mem_wellFormAWSID member

/-- A part is as long as its size says. -/
theorem render_length (part : Part) :
    (part.render (macroValue lib entry om xid)).length = part.size lib entry om xid := by
  cases part with
  | literal c => rfl
  | inBraces name =>
    simp only [Part.render, Part.size, macroValue, String.length_toList]
    split
    · rfl
    · split
      · rfl
      · split
        · rfl
        · cases om.get name with
          | none => exact length_wellFormAWSID _
          | some value =>
            cases value with
            | none => rfl
            | some value => exact length_wellFormAWSID _

/--
A group is one that SQS takes exactly when its pattern and the names of the table bring in nothing
it refuses, and all pieces together have between one character and 128.
-/
theorem messageGroupID_valid_iff {qc : TableQueueConfig} (grouped : qc.groupIDPattern ≠ "") :
    ∃ groupID, qc.getMessageGroupID lib entry om xid = some groupID ∧ (ValidAWSID groupID ↔
        (∀ part ∈ parts none qc.groupIDPattern.toList, part.Clean entry) ∧
          1 ≤ ((parts none qc.groupIDPattern.toList).map (Part.size lib entry om xid)).sum ∧
          ((parts none qc.groupIDPattern.toList).map (Part.size lib entry om xid)).sum ≤ 128) := by
  -- Number and kind of the characters are those of the pieces.
  refine ⟨_, if_neg grouped, ?_⟩
  rw [replaceMacros_eq, ValidAWSID, String.length_ofList, String.toList_ofList, length_flatMap]
  have sizes : (parts none qc.groupIDPattern.toList).map
      (fun part => (part.render (macroValue lib entry om xid)).length) =
      (parts none qc.groupIDPattern.toList).map (Part.size lib entry om xid) :=
    map_congr_left fun part _ => render_length lib entry om xid part
  have clean : (∀ c ∈ (parts none qc.groupIDPattern.toList).flatMap
        (Part.render (macroValue lib entry om xid)), allowed c) ↔
      ∀ part ∈ parts none qc.groupIDPattern.toList, part.Clean entry := by
    simp only [mem_flatMap, forall_exists_index, and_imp, ← render_allowed_iff lib entry om xid]
    constructor
    · intro all part member c inside
      exact all c part member inside
    · intro all c part member inside
      exact all part member c inside
  rw [sizes, clean]
  constructor
  · rintro ⟨some_char, few, fine⟩
    exact ⟨fine, some_char, few⟩
  · rintro ⟨fine, some_char, few⟩
    exact ⟨some_char, few, fine⟩

end Valid

namespace Sample

/-- A queue in order of arrival whose messages are grouped by a pattern. -/
def grouping (pattern : String) : TableQueueConfig :=
  ⟨"public.users", "users", "", true, false, true, pattern⟩

def unnamed : OrderedMap (List UInt8) := ⟨[some [49], none], [true, true], 2, ⟨["id", "name"]⟩⟩

end Sample

open Sqs.Sample

/-- The group made of the table and an identifier is one that SQS takes. -/
theorem messageGroupID_valid_iff_id :
    (grouping "$\x7b%table%\x7d-$\x7bid\x7d").groupIDPattern ≠ "" ∧
      ∃ groupID, (grouping "$\x7b%table%\x7d-$\x7bid\x7d").getMessageGroupID Sample.lib
          (row "users" .insert 0) unnamed 7 = some groupID ∧
        ValidAWSID groupID := by
  have grouped : (grouping "$\x7b%table%\x7d-$\x7bid\x7d").groupIDPattern ≠ "" := by
    decide
  obtain ⟨groupID, rendered, valid⟩ := messageGroupID_valid_iff Sample.lib
    (row "users" .insert 0) unnamed 7 grouped
  have clean : ((parts none "$\x7b%table%\x7d-$\x7bid\x7d".toList).all fun part =>
      decide (part.Clean (row "users" .insert 0))) = true := by
    decide
  refine ⟨grouped, groupID, rendered, valid.mpr ⟨?_, by decide, by decide⟩⟩
  exact fun part member => of_decide_eq_true (all_eq_true.mp clean part member)

/-- A null column leaves an empty group, and a blank stays. -/
theorem messageGroupID_refused :
    ((grouping "$\x7bname\x7d").getMessageGroupID Sample.lib
        (row "users" .insert 0) unnamed 7 = some "" ∧ ¬ ValidAWSID "") ∧
    (grouping "group $\x7bid\x7d").getMessageGroupID Sample.lib
        (row "users" .insert 0) unnamed 7 = some "group 1" ∧
      ¬ ValidAWSID "group 1" := by
  refine ⟨⟨by decide, fun valid => ?_⟩, by decide, fun valid => ?_⟩
  · exact absurd valid.1 (by decide)
  · exact absurd (valid.2.2 ' ' (by decide)) (by decide)

/-- Whether texts agree but for case, given how letters fold. -/
def equalFoldBy (fold : Char → Char) (one other : String) : Bool :=
  one.toList.map fold = other.toList.map fold

section Validation

variable (text : TextLibrary) (fold : Char → Char) (pubTables : List (String × List String))

/-- What is wrong with a group pattern, given the published columns. -/
def TableQueueConfig.validateMessageGroupID (qc : TableQueueConfig) (columns : List String) :
    List String :=
  if qc.groupIDPattern = "" then []
  else (findMacros qc.groupIDPattern).filterMap fun name =>
    if isSpecial name ∨ columns.any (equalFoldBy fold name) then none
    else some ("invalid groupID expression for table: expression " ++ name ++
      " is not a valid column")

/-- What is wrong with a table, of which one queue is looked at. -/
def validateTable (qc : TableQueueConfig) : List String :=
  match pubTables.lookup qc.tableName with
  | none =>
    ["groupID error: table does not exist in publication: " ++ text.quote qc.tableName]
  | some columns =>
    match qc.validateMessageGroupID fold columns with
    | [] => []
    | valErr => ["\n".intercalate valErr ++ ": " ++ text.quote qc.tableName]

/-- Look at the next queue, unless one of its table has been looked at. -/
def validateNext (state : List String × List String) (qc : TableQueueConfig) :
    List String × List String :=
  if qc.tableName ∈ state.1 then state
  else (qc.tableName :: state.1, state.2 ++ validateTable text fold pubTables qc)

/-- What is wrong with the queues, in the order of a visit. -/
def SQSQueueMapper.validateConfig (queueMapper : SQSQueueMapper)
    (visits : Dict.Visits String TableQueueConfig) : List String :=
  (((visits.visit queueMapper.tableQueueMap).map Prod.snd).foldl
    (validateNext text fold pubTables) ([], [])).2

variable {text fold pubTables}

/-- Errors found before stay. -/
theorem validateNext_grows (configs : List TableQueueConfig) (state : List String × List String) :
    state.2 <+: (configs.foldl (validateNext text fold pubTables) state).2 := by
  -- What was found wrong is kept, whatever is looked at.
  induction configs generalizing state with
  | nil => exact prefix_rfl
  | cons qc rest ih =>
    have first : state.2 <+: (validateNext text fold pubTables state qc).2 := by
      unfold validateNext
      split
      · exact prefix_rfl
      · exact prefix_append _ _
    exact first.trans (ih _)

variable {qc : TableQueueConfig}

theorem published_of_validateTable (fine : validateTable text fold pubTables qc = []) :
    ∃ columns, pubTables.lookup qc.tableName = some columns := by
  unfold validateTable at fine
  cases published : pubTables.lookup qc.tableName with
  | none => simp [published] at fine
  | some columns => exact ⟨columns, rfl⟩

/-- A table without errors is published. -/
theorem published_of_foldl {configs : List TableQueueConfig} {state : List String × List String}
    (seen : ∀ name ∈ state.1, ∃ columns, pubTables.lookup name = some columns)
    (fine : (configs.foldl (validateNext text fold pubTables) state).2 = [])
    (member : qc ∈ configs) : ∃ columns, pubTables.lookup qc.tableName = some columns := by
  -- A table was looked at earlier, or nothing is wrong with it now.
  induction configs generalizing state with
  | nil => cases member
  | cons head rest ih =>
    have none_yet : (validateNext text fold pubTables state head).2 = [] :=
      prefix_nil.mp (fine ▸ validateNext_grows rest _)
    have seenNow : head.tableName ∈ (validateNext text fold pubTables state head).1 ∧
        ∀ name ∈ (validateNext text fold pubTables state head).1,
          ∃ columns, pubTables.lookup name = some columns := by
      unfold validateNext at none_yet ⊢
      split at none_yet
      · rename_i earlier
        rw [if_pos earlier]
        exact ⟨earlier, seen⟩
      · rename_i later
        rw [if_neg later]
        have found := published_of_validateTable (append_eq_nil_iff.mp none_yet).2
        refine ⟨mem_cons_self, fun name listed => ?_⟩
        rcases mem_cons.mp listed with rfl | listed
        · exact found
        · exact seen name listed
    rcases mem_cons.mp member with rfl | member
    · exact seenNow.2 _ seenNow.1
    · exact ih seenNow.2 fine member

/-- A macro is replaced by what it stands for, and not left as it is. -/
def Substituted (lib : SqsLib V F) (entry : WriteEntry V) (om : OrderedMap V) (xid : Nat)
    (name : String) : Prop :=
  (name = "%schema%" ∧ macroValue lib entry om xid name = entry.table.schema) ∨
  (name = "%table%" ∧ macroValue lib entry om xid name = entry.table.name) ∨
  (name = "%xid%" ∧ macroValue lib entry om xid name = toString xid) ∨
  ∃ value, om.get name = some value ∧ macroValue lib entry om xid name =
    value.elim "" fun value => wellFormAWSID (lib.sprint value)

/-- A macro is replaced if it has a meaning or names a column. -/
theorem substituted_iff (lib : SqsLib V F) (entry : WriteEntry V) (om : OrderedMap V) (xid : Nat)
    (name : String) :
    Substituted lib entry om xid name ↔ isSpecial name ∨ ∃ value, om.get name = some value := by
  simp only [isSpecial, decide_eq_true_eq]
  constructor
  · rintro (⟨rfl, -⟩ | ⟨rfl, -⟩ | ⟨rfl, -⟩ | ⟨value, found, -⟩)
    · exact .inl (.inl rfl)
    · exact .inl (.inr (.inl rfl))
    · exact .inl (.inr (.inr rfl))
    · exact .inr ⟨value, found⟩
  · by_cases special : name = "%schema%" ∨ name = "%table%" ∨ name = "%xid%"
    · intro _
      rcases special with rfl | rfl | rfl
      · exact .inl ⟨rfl, rfl⟩
      · exact .inr (.inl ⟨rfl, rfl⟩)
      · exact .inr (.inr (.inl ⟨rfl, rfl⟩))
    · rintro (other | ⟨value, found⟩)
      · exact absurd other special
      · -- Neither of the special names comes in between.
        simp only [not_or] at special
        refine .inr (.inr (.inr ⟨value, found, ?_⟩))
        rw [macroValue, if_neg special.1, if_neg special.2.1, if_neg special.2.2, found]
        cases value <;> rfl

/-- A row with exactly the given columns, each without a value. -/
def nullRow (columns : List String) : OrderedMap V where
  values := List.replicate columns.length none
  set := List.replicate columns.length true
  size := columns.length
  keyMap := ⟨columns⟩

theorem get_nullRow (columns : List String) (name : String) :
    (∃ value, (nullRow (V := V) columns).get name = some value) ↔ name ∈ columns := by
  have has := KeyMap.getIndex_isSome_iff ⟨columns⟩ name
  unfold OrderedMap.get nullRow
  cases found : KeyMap.getIndex ⟨columns⟩ name with
  | none =>
    have absent : name ∉ columns := by
      intro member
      simpa [found] using has.mpr member
    simp [absent]
  | some index =>
    have inside : index < columns.length := KeyMap.getIndex_lt found
    have present : name ∈ columns := has.mp (by simp [found])
    simp [inside, present]

theorem newQueueConfig_tableName (kind : OpKind) (tableName : String)
    (defaultConfig : SQSQueueConfig) (op : Option SQSQueueConfig) :
    (newQueueConfig kind tableName defaultConfig op).2.tableName = tableName := by
  cases op with
  | none =>
    simp only [newQueueConfig]
    split <;> rfl
  | some op =>
    simp only [newQueueConfig]
    cases equalFold op.name skipQueue <;> by_cases group : op.groupID = "" <;>
      by_cases named : op.name = "" <;> simp [group, named]

/--
Under an accepted configuration every table is published, and every macro of every group is replaced
in rows with all published columns exactly when each macro of each operation's pattern has a meaning
of its own or is spelled as a published column.
-/
theorem groups_substituted_iff {tables : List (String × SQSTableConfig)}
    (distinct : Dict.Distinct tables) {queueMapper : SQSQueueMapper}
    (built : newSQSQueueMapper tables = .ok queueMapper)
    {visits : Dict.Visits String TableQueueConfig}
    (accepted : queueMapper.validateConfig text fold pubTables visits = [])
    (lib : SqsLib V F) :
    (∀ tableName kind qc, ownConfig tables tableName kind = some qc →
      ∃ columns, pubTables.lookup tableName = some columns) ∧
    ((∀ (entry : WriteEntry V) qc columns om xid, queueMapper.getQueueConfig entry = some qc →
        pubTables.lookup entry.table.fullName = some columns →
        (∀ column ∈ columns, ∃ value, om.get column = some value) →
        ∀ name ∈ findMacros qc.groupIDPattern, Substituted lib entry om xid name) ↔
      ∀ tableName config kind op columns, tables.lookup tableName = some ⟨some config⟩ →
        config.forOp kind = some op → pubTables.lookup tableName = some columns →
        ∀ name ∈ findMacros (configuredGroupID config.toSQSQueueConfig op),
          isSpecial name ∨ name ∈ columns) := by
  -- The queue is visited, or another one of its table is.
  refine ⟨?_, ?_, ?_⟩
  · intro tableName kind qc filed
    have stored : queueMapper.tableQueueMap.lookup (makeQueueConfigKey tableName kind) =
        some qc := by
      rw [addTables_lookup distinct built, filed]
      rfl
    obtain ⟨before, behind, split, -⟩ := lookup_eq_some_iff.mp stored
    have listed : (makeQueueConfigKey tableName kind, qc) ∈ queueMapper.tableQueueMap := by
      rw [split]
      exact mem_append_right _ mem_cons_self
    have visited : qc ∈ (visits.visit queueMapper.tableQueueMap).map Prod.snd :=
      mem_map.mpr ⟨_, (visits.perm _).mem_iff.mpr listed, rfl⟩
    obtain ⟨config, op, -, -, rfl⟩ := ownConfig_eq_some filed
    have none_seen : ∀ name ∈ (([], []) : List String × List String).1,
        ∃ columns, pubTables.lookup name = some columns := by
      intro name member
      cases member
    have published := published_of_foldl none_seen accepted visited
    rw [newQueueConfig_tableName] at published
    exact published
  · intro all tableName config kind op columns found own published name listed
    -- A row with the published columns only decides about each name.
    have filed := ownConfig_eq found own
    have queue := getQueueConfig_new (V := V) distinct built
      ⟨.absent, .absent, "", kind, ⟨"", "", tableName⟩, 0⟩
    rw [← newQueueConfig_groupID kind tableName] at listed
    have done := all _ _ columns (nullRow columns) 0 (queue.trans filed) published
      (fun column member => (get_nullRow columns column).mpr member) name listed
    rw [substituted_iff, get_nullRow] at done
    exact done
  · -- The queue of an entry is the one its table is configured with.
    intro spelled entry qc columns om xid queue published present name listed
    rw [getQueueConfig_new distinct built] at queue
    obtain ⟨config, op, found, own, rfl⟩ := ownConfig_eq_some queue
    rw [newQueueConfig_groupID] at listed
    rw [substituted_iff]
    exact (spelled _ _ _ _ _ found own published name listed).imp_right (present name)

end Validation

namespace Sample

/-- Tables of users grouped by a pattern, except for deletes. -/
def groupedUsers (pattern deletes : String) : List (String × SQSTableConfig) :=
  [("public.users", ⟨some ⟨⟨"users", "", pattern⟩, none, none, some ⟨"deleted", "", deletes⟩⟩⟩)]

def usersColumns : List (String × List String) := [("public.users", ["id", "name"])]

/-- Texts without characters to escape, and no durations. -/
def quoting : TextLibrary := ⟨fun text => "\"" ++ text ++ "\"", fun _ => .error "no duration"⟩

/-- A visit that starts with the queue filed first. -/
def firstToLast : Dict.Visits String TableQueueConfig := ⟨List.reverse, reverse_perm⟩

end Sample

/-- Groups by a column under its own name are replaced in every row. -/
theorem groups_substituted_iff_id :
    ∃ queueMapper, newSQSQueueMapper
        (Sample.groupedUsers "$\x7bid\x7d" "$\x7bname\x7d") = .ok queueMapper ∧
      queueMapper.validateConfig Sample.quoting foldChar Sample.usersColumns
        Sample.firstToLast = [] ∧
      ∀ (entry : WriteEntry (List UInt8)) qc columns om xid,
        queueMapper.getQueueConfig entry = some qc →
        Sample.usersColumns.lookup entry.table.fullName = some columns →
        (∀ column ∈ columns, ∃ value, om.get column = some value) →
        ∀ name ∈ findMacros qc.groupIDPattern, Substituted Sample.lib entry om xid name := by
  -- Each pattern has one macro.
  obtain ⟨queueMapper, built, accepted⟩ : ∃ queueMapper, newSQSQueueMapper
      (Sample.groupedUsers "$\x7bid\x7d" "$\x7bname\x7d") = .ok queueMapper ∧
      queueMapper.validateConfig Sample.quoting foldChar Sample.usersColumns
        Sample.firstToLast = [] := ⟨_, rfl, by decide⟩
  have distinct : Dict.Distinct (Sample.groupedUsers "$\x7bid\x7d" "$\x7bname\x7d") :=
    nodup_singleton _
  refine ⟨queueMapper, built, accepted, ?_⟩
  apply (groups_substituted_iff distinct built accepted Sample.lib).2.mpr
  intro tableName config kind op columns found own published name listed
  obtain ⟨rfl, same⟩ := Dict.lookup_singleton found
  obtain ⟨-, rfl⟩ := Dict.lookup_singleton published
  cases same
  have byID : findMacros (configuredGroupID ⟨"users", "", "$\x7bid\x7d"⟩ none) = ["id"] := by
    decide
  have byName : findMacros (configuredGroupID ⟨"users", "", "$\x7bid\x7d"⟩
      (some ⟨"deleted", "", "$\x7bname\x7d"⟩)) = ["name"] := by decide
  right
  cases kind <;> cases own
  · rw [byID, mem_singleton] at listed
    exact listed ▸ mem_cons_self
  · rw [byID, mem_singleton] at listed
    exact listed ▸ mem_cons_self
  · rw [byName, mem_singleton] at listed
    exact listed ▸ mem_cons_of_mem _ mem_cons_self

/--
A pattern of an operation that is not looked at is accepted with a macro that names no column, and
one that is looked at with a column in other letters.
-/
theorem accepted_group_left :
    (∃ queueMapper, newSQSQueueMapper
        (Sample.groupedUsers "$\x7bid\x7d" "$\x7bnick\x7d") = .ok queueMapper ∧
      queueMapper.validateConfig Sample.quoting foldChar Sample.usersColumns
        Sample.firstToLast = [] ∧
      ∃ qc, queueMapper.getQueueConfig (row "users" .delete 0) = some qc ∧
        qc.getMessageGroupID Sample.lib (row "users" .delete 0) unnamed 7 = some "$\x7bnick\x7d") ∧
    ∃ queueMapper, newSQSQueueMapper
        (Sample.groupedUsers "$\x7bID\x7d" "") = .ok queueMapper ∧
      queueMapper.validateConfig Sample.quoting foldChar Sample.usersColumns
        Sample.firstToLast = [] ∧
      ∃ qc, queueMapper.getQueueConfig (row "users" .insert 0) = some qc ∧
        qc.getMessageGroupID Sample.lib (row "users" .insert 0) unnamed 7 = some "$\x7bID\x7d" :=
  ⟨⟨_, rfl, by decide, _, rfl, by decide⟩, _, rfl, by decide, _, rfl, by decide⟩

end PgWalk.Sqs
