import PgWalk.Wal.Messages

/-! What a tuple holds after it has been read: the values of the columns that were asked for. -/

namespace PgWalk

open List Option

variable {V : Type}

namespace KeyMap

variable {key : String} {first index : Nat} {keyMap : KeyMap} {keys : List String}

/-- The index found is a place of the key. -/
theorem indexFrom_spec (found : indexFrom key first keys = some index) :
    ∃ offset, index = first + offset ∧ keys[offset]? = some key := by
  -- A later occurrence wins.
  induction keys generalizing first with
  | nil => cases found
  | cons head rest ih =>
    simp only [indexFrom] at found
    cases later : indexFrom key (first + 1) rest with
    | some other =>
      rw [later] at found
      cases found
      obtain ⟨offset, rfl, holds⟩ := ih later
      exact ⟨offset + 1, by omega, by simpa using holds⟩
    | none =>
      simp only [later, ite_none_right_eq_some, some.injEq] at found
      obtain ⟨rfl, rfl⟩ := found
      exact ⟨0, rfl, rfl⟩

theorem indexFrom_eq_none_iff : indexFrom key first keys = none ↔ key ∉ keys := by
  induction keys generalizing first with
  | nil => simp [indexFrom]
  | cons head rest ih =>
    simp only [indexFrom]
    cases later : indexFrom key (first + 1) rest with
    | some other =>
      have member : key ∈ rest := not_not.mp fun absent => by simp [ih.mpr absent] at later
      simp [member]
    | none =>
      have absent := ih.mp later
      by_cases here : head = key
      · simp [here]
      · simp [here, absent, Ne.symm here]

theorem getIndex_spec (found : keyMap.getIndex key = some index) :
    keyMap.keysArr[index]? = some key := by
  obtain ⟨offset, rfl, holds⟩ := indexFrom_spec found
  simpa using holds

theorem getIndex_isSome_iff (keyMap : KeyMap) (key : String) :
    (keyMap.getIndex key).isSome ↔ key ∈ keyMap.keysArr := by
  rw [isSome_iff_ne_none, Ne, getIndex, indexFrom_eq_none_iff, not_not]

theorem getIndex_lt (found : keyMap.getIndex key = some index) : index < keyMap.len :=
  (List.getElem?_eq_some_iff.mp (getIndex_spec found)).1

theorem getIndex_inj {one other : String} (first : keyMap.getIndex one = some index)
    (second : keyMap.getIndex other = some index) : one = other :=
  some.inj ((getIndex_spec first).symm.trans (getIndex_spec second))

end KeyMap

namespace OrderedMap

/-- A tuple with a place for every position of its key map. -/
structure WellSized (om : OrderedMap V) : Prop where
  values : om.values.length = om.keyMap.len
  set : om.set.length = om.keyMap.len

theorem wellSized_new (keyMap : KeyMap) : (new keyMap : OrderedMap V).WellSized :=
  ⟨by simp [new], by simp [new]⟩

theorem get_new (keyMap : KeyMap) (key : String) : (new keyMap : OrderedMap V).get key = none := by
  simp only [get, new]
  cases keyMap.getIndex key with
  | none => rfl
  | some index =>
    have unset : (List.replicate keyMap.len false).getD index false = false := by
      rw [getD_eq_getElem?_getD, getElem?_replicate]
      split <;> rfl
    simp only [unset]
    rfl

variable {om : OrderedMap V}

theorem get_of_unknown {name : String} (unknown : name ∉ om.keyMap.keysArr) :
    om.get name = none := by
  have missing : om.keyMap.getIndex name = none := KeyMap.indexFrom_eq_none_iff.mpr unknown
  simp [get, missing]

/-- A key of the key map can be set, keeping key map and places. -/
theorem setValue_ok (sized : om.WellSized) {key : String} (known : key ∈ om.keyMap.keysArr)
    (value : Option V) :
    ∃ next, om.setValue key value = .ok next ∧ next.keyMap = om.keyMap ∧ next.WellSized ∧
      ∀ other, next.get other = if key = other then some value else om.get other := by
  -- Another key has another position, which is not written.
  obtain ⟨index, found⟩ := isSome_iff_exists.mp ((om.keyMap.getIndex_isSome_iff key).mpr known)
  have bound := KeyMap.getIndex_lt found
  simp only [setValue, found, if_neg (Nat.not_le.mpr bound)]
  refine ⟨_, rfl, rfl, ⟨by simpa using sized.values, by simpa using sized.set⟩, fun other => ?_⟩
  simp only [get]
  by_cases same : key = other
  · subst same
    simp [found, getD_eq_getElem?_getD, sized.set, sized.values, bound]
  · rw [if_neg same]
    cases located : om.keyMap.getIndex other with
    | none => rfl
    | some place =>
      have apart : index ≠ place := fun eq => same (KeyMap.getIndex_inj found (eq ▸ located))
      simp [getD_eq_getElem?_getD, getElem?_set_ne apart]

end OrderedMap

variable (codec : ValueCodec V)

def ColumnData.Holds (dataType : Nat) (col : ColumnData) (value : Option V) : Prop :=
  match col with
  | .null => value = none
  | .text data => codec.decode data dataType = .ok value
  | .unchanged | .other => False

/-- The value a received column carries, none if the server left it out. -/
def ColumnData.carried (dataType : Nat) : ColumnData → Option (Option V)
  | .null => some none
  | .text data => (codec.decode data dataType).toOption
  | .unchanged | .other => none

variable (columns : List RelationMessageColumn) (t : TupleData)

/-- The value the column at an index carries, if it has the name. -/
def TupleData.carriedAt
    (name : String) (index : Nat) : Option (Option V) :=
  (columns[index]?).bind fun relCol =>
    if relCol.name = name then (t.columns[index]?).bind (ColumnData.carried codec relCol.dataType)
    else none

def TupleData.carried
    (name : String) : Option (Option V) :=
  -- No relation has two columns of one name; if one had, the later value would be stored last.
  (List.range columns.length).reverse.findSome? (t.carriedAt codec columns name)

/-- A tuple in which every column has a value of its own. -/
def TupleData.Complete : Prop :=
  ∀ col ∈ t.columns, col = .null ∨ ∃ data, col = .text data

/-- A column has been read: the tuple holds the value received for it. -/
def ReadAt (index : Nat) (relCol : RelationMessageColumn)
    (om : OrderedMap V) : Prop :=
  ∃ col value, t.columns[index]? = some col ∧ col.Holds codec relCol.dataType value ∧
    om.get relCol.name = some value

section Columns

variable {codec : ValueCodec V} {columns : List RelationMessageColumn} {t : TupleData}
  {om next : OrderedMap V} {index : Nat}

inductive ReadCase (codec : ValueCodec V) (t : TupleData) (relCol : RelationMessageColumn)
    (index : Nat) (om next : OrderedMap V) : Prop
  -- The key map does not have the column.
  | unknown (absent : relCol.name ∉ om.keyMap.keysArr) (same : next = om)
  -- The value is stored.
  | stored (read : ReadAt codec t index relCol next)
      (others : ∀ other, relCol.name ≠ other → next.get other = om.get other)

/-- A complete tuple's column is stored if the key map has it. -/
theorem readColumn_cases (sized : om.WellSized) (complete : t.Complete)
    (read : readColumn codec columns t om index = .ok next) :
    ∃ relCol, columns[index]? = some relCol ∧ ReadCase codec t relCol index om next ∧
      next.keyMap = om.keyMap ∧ next.WellSized := by
  -- Either way a value is stored under the column's name.
  simp only [readColumn] at read
  cases column : columns[index]? with
  | none => simp [column, throw, throwThe] at read
  | some relCol =>
    refine ⟨relCol, rfl, ?_⟩
    simp only [column] at read
    cases found : om.keyMap.getIndex relCol.name with
    | none =>
      simp only [found] at read
      cases read
      exact ⟨.unknown (KeyMap.indexFrom_eq_none_iff.mp found) rfl, rfl, sized⟩
    | some place =>
      simp only [found] at read
      have known : relCol.name ∈ om.keyMap.keysArr :=
        (om.keyMap.getIndex_isSome_iff _).mp (by rw [found]; rfl)
      cases received : t.columns[index]? with
      | none => simp [received, throw, throwThe] at read
      | some col =>
        simp only [received] at read
        have stored : ∀ value, col.Holds codec relCol.dataType value →
            om.setValue relCol.name value = .ok next →
            ReadCase codec t relCol index om next ∧ next.keyMap = om.keyMap ∧ next.WellSized := by
          intro value holds set
          obtain ⟨after, done, keys, fits, gets⟩ := OrderedMap.setValue_ok sized known value
          rw [done] at set
          cases set
          refine ⟨.stored ⟨col, value, received, holds, ?_⟩ fun other apart => ?_, keys, fits⟩
          · rw [gets, if_pos rfl]
          · rw [gets, if_neg apart]
        rcases complete col (mem_of_getElem? received) with rfl | ⟨data, rfl⟩
        · exact stored none rfl read
        · obtain ⟨value, decoded, set⟩ := bind_eq_ok.mp read
          exact stored value decoded set

variable {relCol : RelationMessageColumn} {indexes : List Nat}

theorem index_eq_of_name {other : Nat} {otherCol : RelationMessageColumn}
    (distinct : (columns.map RelationMessageColumn.name).Nodup)
    (here : columns[index]? = some relCol) (there : columns[other]? = some otherCol)
    (same : relCol.name = otherCol.name) : index = other := by
  have bound : index < (columns.map RelationMessageColumn.name).length := by
    simpa using (List.getElem?_eq_some_iff.mp here).1
  refine (List.getElem?_inj bound distinct).mp ?_
  rw [List.getElem?_map, List.getElem?_map, here, there]
  exact congrArg some same

/-- Reading keeps what has been read, and reads what it goes through. -/
theorem readColumns_spec (distinct : (columns.map RelationMessageColumn.name).Nodup)
    (sized : om.WellSized) (complete : t.Complete)
    (read : indexes.foldlM (readColumn codec columns t) om = .ok next)
    (column : columns[index]? = some relCol) (known : relCol.name ∈ om.keyMap.keysArr) :
    (index ∈ indexes ∨ ReadAt codec t index relCol om → ReadAt codec t index relCol next) ∧
      (index ∉ indexes → next.get relCol.name = om.get relCol.name) := by
  -- Columns are read in turn, and each leaves the others as they are.
  induction indexes generalizing om with
  | nil =>
    cases read
    exact ⟨fun held => held.resolve_left (by simp), fun _ => rfl⟩
  | cons first rest ih =>
    obtain ⟨mid, one, others⟩ := bind_eq_ok.mp read
    obtain ⟨firstCol, firstColumn, step, keys, fits⟩ := readColumn_cases sized complete one
    obtain ⟨later, kept⟩ := ih fits others (keys ▸ known)
    by_cases here : index = first
    · -- This very column is read now.
      subst here
      obtain rfl : relCol = firstCol := some.inj (column.symm.trans firstColumn)
      refine ⟨fun _ => later (.inr ?_), fun absent => absurd mem_cons_self absent⟩
      cases step with
      | unknown absent same => exact absurd known absent
      | stored now _ => exact now
    · have apart : firstCol.name ≠ relCol.name := fun same =>
        here (index_eq_of_name distinct firstColumn column same).symm
      have untouched : mid.get relCol.name = om.get relCol.name := by
        cases step with
        | unknown _ same => rw [same]
        | stored _ other => exact other _ apart
      refine ⟨fun held => later ?_, fun absent => ?_⟩
      · rcases held with inList | ⟨col, value, received, holds, held⟩
        · exact .inl ((mem_cons.mp inList).resolve_left here)
        · exact .inr ⟨col, value, received, holds, untouched.trans held⟩
      · rw [kept fun inRest => absent (mem_cons_of_mem _ inRest), untouched]

/-- Reading a column stores the value it carries, if any. -/
theorem readColumn_get (sized : om.WellSized)
    (read : readColumn codec columns t om index = .ok next) :
    next.keyMap = om.keyMap ∧ next.WellSized ∧ ∀ name ∈ om.keyMap.keysArr,
      next.get name = (t.carriedAt codec columns name index).or (om.get name) := by
  -- Only a carried value of the column asked for changes the tuple.
  simp only [readColumn] at read
  cases column : columns[index]? with
  | none => simp [column, throw, throwThe] at read
  | some relCol =>
    simp only [column] at read
    cases found : om.keyMap.getIndex relCol.name with
    | none =>
      simp only [found] at read
      cases read
      refine ⟨rfl, sized, fun name known => ?_⟩
      have apart : relCol.name ≠ name := fun same =>
        KeyMap.indexFrom_eq_none_iff.mp found (same ▸ known)
      simp [TupleData.carriedAt, column, apart]
    | some place =>
      simp only [found] at read
      have known : relCol.name ∈ om.keyMap.keysArr :=
        (om.keyMap.getIndex_isSome_iff _).mp (by rw [found]; rfl)
      cases received : t.columns[index]? with
      | none => simp [received, throw, throwThe] at read
      | some col =>
        simp only [received] at read
        have carries : ∀ name, t.carriedAt codec columns name index =
            if relCol.name = name then col.carried codec relCol.dataType else none := by
          simp [TupleData.carriedAt, column, received]
        have stored : ∀ value, col.carried codec relCol.dataType = some value →
            om.setValue relCol.name value = .ok next →
            next.keyMap = om.keyMap ∧ next.WellSized ∧ ∀ name ∈ om.keyMap.keysArr,
              next.get name = (t.carriedAt codec columns name index).or (om.get name) := by
          intro value carried set
          obtain ⟨after, done, keys, fits, gets⟩ := OrderedMap.setValue_ok sized known value
          rw [done] at set
          cases set
          refine ⟨keys, fits, fun name _ => ?_⟩
          rw [gets, carries, carried]
          split <;> rfl
        have skipped : col.carried codec relCol.dataType = none → om = next →
            next.keyMap = om.keyMap ∧ next.WellSized ∧ ∀ name ∈ om.keyMap.keysArr,
              next.get name = (t.carriedAt codec columns name index).or (om.get name) := by
          rintro nothing rfl
          refine ⟨rfl, sized, fun name _ => ?_⟩
          rw [carries, nothing, ite_self, none_or]
        cases col with
        | null => exact stored none rfl read
        | text data =>
          obtain ⟨value, decoded, set⟩ := bind_eq_ok.mp read
          exact stored value (toOption_eq_some.mpr decoded) set
        | unchanged | other => exact skipped rfl (Except.ok.inj read)

theorem readColumns_get (sized : om.WellSized)
    (read : indexes.foldlM (readColumn codec columns t) om = .ok next) :
    next.keyMap = om.keyMap ∧ ∀ name ∈ om.keyMap.keysArr, next.get name =
      (indexes.reverse.findSome? (t.carriedAt codec columns name)).or (om.get name) := by
  -- Each column is stored over what the columns before it have left.
  induction indexes generalizing om with
  | nil =>
    cases read
    exact ⟨rfl, fun _ _ => rfl⟩
  | cons first rest ih =>
    obtain ⟨mid, one, others⟩ := bind_eq_ok.mp read
    obtain ⟨keys, fits, gets⟩ := readColumn_get sized one
    obtain ⟨sameKeys, later⟩ := ih fits others
    refine ⟨sameKeys.trans keys, fun name known => ?_⟩
    rw [later name (keys ▸ known), gets name known, reverse_cons, findSome?_append,
      findSome?_singleton, Option.or_assoc]

/-- A tuple of nulls can be read, whichever columns are asked for. -/
theorem readColumns_nulls (sized : om.WellSized) {indexes : List Nat}
    (bounds : ∀ index ∈ indexes, index < columns.length)
    (nulls : t.columns = List.replicate columns.length .null) :
    ∃ next, indexes.foldlM (readColumn codec columns t) om = .ok next := by
  -- A null needs no decoding, so only the bounds could fail.
  induction indexes generalizing om with
  | nil => exact ⟨om, rfl⟩
  | cons first rest ih =>
    have bound := bounds first mem_cons_self
    have one : ∃ mid, readColumn codec columns t om first = .ok mid ∧ mid.WellSized := by
      simp only [readColumn, getElem?_eq_getElem bound]
      cases found : om.keyMap.getIndex columns[first].name with
      | none => exact ⟨om, rfl, sized⟩
      | some place =>
        have known := (om.keyMap.getIndex_isSome_iff _).mp (by rw [found]; rfl)
        obtain ⟨mid, set, -, fits, -⟩ := OrderedMap.setValue_ok sized known none
        refine ⟨mid, ?_, fits⟩
        simpa [nulls, getElem?_replicate, bound, writeValue] using set
    obtain ⟨mid, read, fits⟩ := one
    obtain ⟨next, others⟩ := ih fits fun index member =>
      bounds index (mem_cons_of_mem _ member)
    refine ⟨next, ?_⟩
    exact bind_eq_ok.mpr ⟨mid, read, others⟩

end Columns

def ReadTupleConfig.indexes (cfg : ReadTupleConfig) (t : TupleData) : List Nat :=
  match cfg.readAll, cfg.readIndexes with
  | false, some indexes => indexes
  | _, _ => List.range t.columns.length

theorem readTuple_eq_ok {codec : ValueCodec V} {t : TupleData}
    {columns : List RelationMessageColumn} {cfg : ReadTupleConfig} {keyMap : KeyMap}
    {om : OrderedMap V} :
    readTuple codec (some t) columns cfg keyMap = .ok (some om) ↔
      (cfg.indexes t).foldlM (readColumn codec columns t) (.new keyMap) = .ok om := by
  have folded : readTuple codec (some t) columns cfg keyMap =
      ((cfg.indexes t).foldlM (readColumn codec columns t) (.new keyMap)).map some := rfl
  rw [folded]
  cases (cfg.indexes t).foldlM (readColumn codec columns t) (.new keyMap) <;> simp [Except.map]

end PgWalk
