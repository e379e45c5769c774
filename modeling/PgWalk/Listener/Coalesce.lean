import PgWalk.Lib.Replay
import PgWalk.Listener.Basic

/-! Merging the changes of a transaction by key, and what the merged rows still say. -/

namespace PgWalk

open Change Replay List Option TxList

variable {V : Type}

namespace TxList

/-- A list has the entry it finds under a key. -/
theorem mem_entries_iff (txl : TxList V) (key : String) (entry : WriteEntry V) :
    (key, entry) ∈ txl.entries ↔ txl.get key = some entry := by
  -- Distinct keys make the first element with this key the only one.
  constructor
  · intro member
    cases found : txl.entries.find? fun element => element.1 = key with
    | none =>
      have missed := find?_eq_none.mp found (key, entry) member
      simp at missed
    | some element =>
      have stored := mem_of_find?_eq_some found
      have named : element.1 = key := by simpa using find?_some found
      have same : element = (key, entry) := inj_on_of_nodup_map txl.distinct stored member named
      simp [get, found, same]
  · intro found
    obtain ⟨element, located, rfl⟩ := map_eq_some_iff.mp found
    have named : element.1 = key := by simpa using find?_some located
    exact named ▸ mem_of_find?_eq_some located

variable {txl : TxList V} {change : Change V}

/-- A key in use ends last with the new tuple; other rows keep their place. -/
theorem cache_entries_of_some {entry : WriteEntry V}
    (used : txl.get change.txEntryKey = some entry) : (txl.cache change).entries =
      (txl.entries.filter fun element => element.1 ≠ change.txEntryKey) ++
        [(change.txEntryKey, { entry with tuple := change.tuple })] := by
  -- Only one element carries the key, so exactly one moves.
  have unfolded : (txl.cache change).entries =
      ((txl.setTuple change.txEntryKey change.tuple).moveKeyToEnd change.txEntryKey).entries := by
    unfold cache
    split
    · rfl
    · rename_i unused
      simp [used] at unused
  have kept : ∀ elements : List (String × WriteEntry V),
      (elements.map fun element => if element.1 = change.txEntryKey then
          (element.1, { element.2 with tuple := change.tuple }) else element).filter
        (fun element => element.1 ≠ change.txEntryKey) =
      elements.filter fun element => element.1 ≠ change.txEntryKey := by
    intro elements
    induction elements with
    | nil => rfl
    | cons element rest ih =>
      by_cases here : element.1 = change.txEntryKey <;> simp_all
  have moved : ∀ elements : List (String × WriteEntry V), (elements.map Prod.fst).Nodup →
      (change.txEntryKey, entry) ∈ elements →
      (elements.map fun element => if element.1 = change.txEntryKey then
          (element.1, { element.2 with tuple := change.tuple }) else element).filter
        (fun element => element.1 = change.txEntryKey) =
      [(change.txEntryKey, { entry with tuple := change.tuple })] := by
    intro elements distinct member
    induction elements with
    | nil => simp at member
    | cons element rest ih =>
      simp only [map_cons, nodup_cons, List.mem_map, not_exists, not_and] at distinct
      rcases mem_cons.mp member with same | member
      · have gone : rest.filter (fun other => decide (other.1 = change.txEntryKey)) = [] := by
          simp only [filter_eq_nil_iff, decide_eq_true_eq]
          intro other stored named
          exact distinct.1 other stored (by rw [named, ← same])
        have none_left : (rest.map fun element => if element.1 = change.txEntryKey then
            (element.1, { element.2 with tuple := change.tuple }) else element).filter
              (fun element => element.1 = change.txEntryKey) = [] := by
          simp only [filter_eq_nil_iff, decide_eq_true_eq] at gone ⊢
          intro other stored
          obtain ⟨original, originalStored, rfl⟩ := List.mem_map.mp stored
          have apart := gone original originalStored
          simp [apart]
        simp [← same, none_left]
      · have apart : element.1 ≠ change.txEntryKey := fun same =>
          distinct.1 _ member (by simp [same])
        simpa [apart] using ih distinct.2 member
  rw [unfolded]
  simp only [moveKeyToEnd, setTuple]
  rw [kept, moved txl.entries txl.distinct ((mem_entries_iff _ _ _).mpr used)]

theorem cache_entries_of_none (unused : txl.get change.txEntryKey = none) :
    (txl.cache change).entries = txl.entries ++ [(change.txEntryKey, change.toEntry)] := by
  unfold cache
  split
  · rename_i used
    simp [used] at unused
  · rfl

/-- A cached change replaces the tuple under its key only. -/
theorem get_cache (txl : TxList V) (change : Change V) (key : String) :
    (txl.cache change).get key =
      if change.txEntryKey = key then
        some { (txl.get key).getD change.toEntry with tuple := change.tuple }
      else txl.get key := by
  cases used : txl.get change.txEntryKey with
  | some entry =>
    by_cases here : change.txEntryKey = key
    · subst here
      rw [if_pos rfl, used, ← mem_entries_iff, cache_entries_of_some used]
      simp
    · rw [if_neg here]
      refine Option.ext fun row => ?_
      rw [← mem_entries_iff, ← mem_entries_iff, cache_entries_of_some used]
      simp [Ne.symm here]
  | none =>
    by_cases here : change.txEntryKey = key
    · subst here
      rw [if_pos rfl, used, ← mem_entries_iff, cache_entries_of_none used]
      simp [toEntry]
    · rw [if_neg here]
      refine Option.ext fun row => ?_
      rw [← mem_entries_iff, ← mem_entries_iff, cache_entries_of_none used]
      simp [Ne.symm here]

end TxList

variable (changes : List (Change V))

/-- The rows of a transaction after some changes. -/
def coalesce : TxList V :=
  changes.foldl cache newTxList

variable (change : Change V)

theorem coalesce_snoc : coalesce (changes ++ [change]) = (coalesce changes).cache change := by
  simp [coalesce]

/-- The changes of a transaction that merge under one key, in order. -/
def changesAt (key : String) : List (Change V) :=
  changes.filter fun change => change.txEntryKey = key

theorem changesAt_snoc (key : String) : changesAt (changes ++ [change]) key =
      if change.txEntryKey = key then changesAt changes key ++ [change]
      else changesAt changes key := by
  by_cases here : change.txEntryKey = key <;> simp [changesAt, here]

variable (first last : Change V)

/-- The row left by changes of one key: all but the tuple is the first's. -/
def Change.mergedWith : WriteEntry V :=
  { first.toEntry with tuple := last.tuple }

/-- The table and key string that identify a changed row. -/
def Change.rowKey : String × String :=
  (change.table.fullName, change.pk)

/-- The table and key string that identify a row of a request. -/
def WriteEntry.rowKey (entry : WriteEntry V) : String × String :=
  (entry.table.fullName, entry.pk)

@[simp] theorem Change.mergedWith_rowKey : (first.mergedWith last).rowKey = first.rowKey := rfl

@[simp] theorem Change.mergedWith_kind : (first.mergedWith last).kind = first.kind := rfl

@[simp] theorem Change.mergedWith_tuple : (first.mergedWith last).tuple = last.tuple := rfl

theorem get_coalesce (key : String) : (coalesce changes).get key =
      (changesAt changes key).head?.bind fun first =>
        (changesAt changes key).getLast?.map fun last => first.mergedWith last := by
  -- Each change rewrites its own key, so follow the arrival order from behind.
  induction changes using List.reverseRecOn with
  | nil => rfl
  | append_singleton changes change ih =>
    rw [coalesce_snoc, get_cache, changesAt_snoc, ih]
    by_cases here : change.txEntryKey = key
    · simp only [if_pos here]
      cases earlier : changesAt changes key with
      | nil => simp [mergedWith, toEntry]
      | cons first rest => simp [mergedWith, getLast?_cons]
    · simp [if_neg here]

variable {changes : List (Change V)}

theorem coalesce_key_eq {key : String} {entry : WriteEntry V}
    (stored : (coalesce changes).get key = some entry) :
    entry.rowKey.1 ++ ":" ++ entry.rowKey.2 = key := by
  rw [get_coalesce] at stored
  obtain ⟨first, isFirst, stored⟩ := bind_eq_some_iff.mp stored
  obtain ⟨last, isLast, rfl⟩ := map_eq_some_iff.mp stored
  have member : first ∈ changesAt changes key := mem_of_head? isFirst
  have named : first.txEntryKey = key := by simpa using (mem_filter.mp member).2
  exact named

/-- A row kind's effect downstream: deletes remove, others upsert. -/
def OpKind.image (kind : OpKind) (tuple : EntryTuple V) : Option (EntryTuple V) :=
  if kind = .delete then none else some tuple

/-- A change as it acts on a store of rows. -/
def Change.op : Op (String × String) (EntryTuple V) :=
  ⟨change.rowKey, change.kind.image change.tuple⟩

/-- A row of a request as it acts on a store of rows. -/
def WriteEntry.op (entry : WriteEntry V) : Op (String × String) (EntryTuple V) :=
  ⟨entry.rowKey, entry.kind.image entry.tuple⟩

/-- The rows of a request in the order of their numbers. -/
def WriteRequest.inOffsetOrder (req : WriteRequest V) : List (WriteEntry V) :=
  req.entries.insertionSort fun a b => a.offset ≤ b.offset

/-- Changes that merge under one key are changes of one row. -/
def KeysSeparate (changes : List (Change V)) : Prop :=
  ∀ first ∈ changes, ∀ second ∈ changes, first.txEntryKey = second.txEntryKey →
    first.rowKey = second.rowKey

/-- The first and last change of each key are both deletes or neither is. -/
def EndKindsAgree (changes : List (Change V)) : Prop :=
  ∀ key, ∀ first ∈ (changesAt changes key).head?, ∀ last ∈ (changesAt changes key).getLast?,
    (first.kind = .delete ↔ last.kind = .delete)

theorem lastImage_changes (changes : List (Change V)) (row : String × String) :
    lastImage (changes.map op) row =
      ((changes.filter fun change => change.rowKey = row).getLast?).map
        fun change => change.kind.image change.tuple := by
  induction changes using List.reverseRecOn with
  | nil => rfl
  | append_singleton changes change ih =>
    rw [map_append, map_singleton, lastImage_snoc, ih]
    by_cases here : change.rowKey = row <;> simp [op, here]

theorem coalesce_ops_distinct (changes : List (Change V)) :
    (((coalesce changes).entries.map fun row => row.2.op).map Op.key).Nodup := by
  -- The key a row is merged under is spelled by its table and key string.
  refine List.Nodup.of_map (fun row : String × String => row.1 ++ ":" ++ row.2) ?_
  have spelled : (((coalesce changes).entries.map fun row => row.2.op).map Op.key).map
      (fun row : String × String => row.1 ++ ":" ++ row.2) =
        (coalesce changes).entries.map Prod.fst := by
    simp only [List.map_map]
    refine map_congr_left fun row member => ?_
    exact coalesce_key_eq ((mem_entries_iff _ _ _).mp member)
  rw [spelled]
  exact (coalesce changes).distinct

/-- The merged rows' last effect on a row is that of its key's row. -/
theorem lastImage_coalesce (changes : List (Change V)) (row : String × String) :
    lastImage ((coalesce changes).entries.map fun element => element.2.op) row =
      ((coalesce changes).get (row.1 ++ ":" ++ row.2)).bind fun entry =>
        if entry.rowKey = row then some (entry.kind.image entry.tuple)
        else none := by
  cases stored : (coalesce changes).get (row.1 ++ ":" ++ row.2) with
  | none =>
    rw [bind_none, lastImage_eq_none_iff]
    intro op member same
    obtain ⟨element, inEntries, rfl⟩ := List.mem_map.mp member
    have named := (mem_entries_iff _ _ _).mp inEntries
    have spelled := coalesce_key_eq named
    simp only [WriteEntry.op] at same
    rw [← same] at stored
    simp [spelled, named, reduceCtorEq] at stored
  | some entry =>
    have inEntries := (mem_entries_iff _ _ _).mpr stored
    have member : entry.op ∈ (coalesce changes).entries.map fun element => element.2.op :=
      List.mem_map_of_mem inEntries
    rw [bind_some]
    by_cases same : entry.rowKey = row
    · rw [if_pos same, ← same]
      exact lastImage_of_mem (coalesce_ops_distinct changes) member
    · -- The key belongs to another row, and no other key spells this one.
      rw [if_neg same, lastImage_eq_none_iff]
      intro op others touched
      obtain ⟨element, stored', rfl⟩ := List.mem_map.mp others
      have named := (mem_entries_iff _ _ _).mp stored'
      have spelled := coalesce_key_eq named
      have named' : (coalesce changes).get (row.1 ++ ":" ++ row.2) = some element.2 := by
        rw [← touched]
        simpa [WriteEntry.op, spelled] using named
      rw [stored] at named'
      exact same (by simpa [WriteEntry.op, ← some.inj named'] using touched)

theorem filter_rowKey_eq (separate : KeysSeparate changes) {change : Change V}
    (member : change ∈ changes) : (changes.filter fun other => other.rowKey = change.rowKey) =
      changesAt changes change.txEntryKey := by
  refine filter_congr fun other stored => ?_
  have agree : other.rowKey = change.rowKey ↔ other.txEntryKey = change.txEntryKey := by
    constructor
    · intro same
      simp only [rowKey, Prod.mk.injEq] at same
      simp [txEntryKey, same]
    · exact separate other stored change member
  simp [agree]

/-- Rows apart by key that agree at both ends keep the net effect. -/
theorem lastImage_coalesce_of_agree (separate : KeysSeparate changes)
    (agree : EndKindsAgree changes) (row : String × String) :
    lastImage ((coalesce changes).entries.map fun element => element.2.op) row =
      lastImage (changes.map op) row := by
  -- The key's first change is one of this very row, so the merged row acts here.
  rw [lastImage_coalesce, lastImage_changes, get_coalesce]
  by_cases touched : ∃ change ∈ changes, change.rowKey = row
  · obtain ⟨change, member, rfl⟩ := touched
    rw [filter_rowKey_eq separate member]
    have nonempty : changesAt changes change.txEntryKey ≠ [] :=
      ne_nil_of_mem (mem_filter.mpr ⟨member, by simp⟩)
    obtain ⟨first, isFirst⟩ := ne_none_iff_exists'.mp
      (fun none => nonempty (head?_eq_none_iff.mp none))
    obtain ⟨last, isLast⟩ := ne_none_iff_exists'.mp
      (fun none => nonempty (getLast?_eq_none_iff.mp none))
    have firstMember := mem_filter.mp (mem_of_head? isFirst)
    have firstKey : first.txEntryKey = change.txEntryKey := by simpa using firstMember.2
    have firstRow := separate first firstMember.1 change member firstKey
    have kinds := agree change.txEntryKey first isFirst last isLast
    have key : change.rowKey.1 ++ ":" ++ change.rowKey.2 = change.txEntryKey := rfl
    rw [key, isFirst, isLast]
    simp only [bind_some, map_some]
    rw [if_pos ((mergedWith_rowKey first last).trans firstRow)]
    simp [OpKind.image, kinds]
  · -- No change has this row, so neither its key's changes nor its own ones act here.
    have none_here : (changes.filter fun change => change.rowKey = row) = [] := by
      simp only [filter_eq_nil_iff, decide_eq_true_eq]
      exact fun change member same => touched ⟨change, member, same⟩
    rw [none_here, getLast?_nil, map_none]
    cases isFirst : (changesAt changes (row.1 ++ ":" ++ row.2)).head? with
    | none => rfl
    | some first =>
      have member := (mem_filter.mp (mem_of_head? isFirst)).1
      have apart : first.rowKey ≠ row := fun same => touched ⟨first, member, same⟩
      cases isLast : (changesAt changes (row.1 ++ ":" ++ row.2)).getLast? with
      | none => rfl
      | some last =>
        exact if_neg apart

section

variable (same : ∀ row, lastImage ((coalesce changes).entries.map fun element => element.2.op) row =
  lastImage (changes.map op) row)

include same

/-- A key shared by two rows loses the changes of one of them. -/
theorem keysSeparate_of_lastImage : KeysSeparate changes := by
  -- Every change shares the row of its key's first change, or is never written.
  have toFirst : ∀ change ∈ changes, ∀ first ∈ (changesAt changes change.txEntryKey).head?,
      first.rowKey = change.rowKey := by
    intro change member first isFirst
    have at_row := same change.rowKey
    rw [lastImage_coalesce, lastImage_changes, get_coalesce] at at_row
    have key : change.rowKey.1 ++ ":" ++ change.rowKey.2 = change.txEntryKey := rfl
    have present : (changes.filter fun other => other.rowKey = change.rowKey).getLast? ≠ none := by
      rw [Ne, getLast?_eq_none_iff]
      exact ne_nil_of_mem (mem_filter.mpr ⟨member, by simp⟩)
    obtain ⟨final, isFinal⟩ := ne_none_iff_exists'.mp present
    rw [key, isFirst, isFinal] at at_row
    by_contra apart
    cases isLast : (changesAt changes change.txEntryKey).getLast? with
    | none => simp [isLast] at at_row
    | some last =>
      rw [isLast] at at_row
      simp only [bind_some, map_some] at at_row
      rw [if_neg (show (first.mergedWith last).rowKey ≠ change.rowKey from apart)] at at_row
      cases at_row
  intro first firstMember second secondMember keys
  have nonempty : changesAt changes second.txEntryKey ≠ [] :=
    ne_nil_of_mem (mem_filter.mpr ⟨secondMember, by simp⟩)
  obtain ⟨head, isHead⟩ := ne_none_iff_exists'.mp
    (fun none => nonempty (head?_eq_none_iff.mp none))
  rw [← toFirst first firstMember head (by rw [keys]; exact isHead),
    toFirst second secondMember head isHead]

/-- A key whose ends disagree about deletion has the wrong effect. -/
theorem endKindsAgree_of_lastImage : EndKindsAgree changes := by
  -- Both readings of the row end in the last tuple, or in a removal.
  have separate := keysSeparate_of_lastImage same
  intro key first isFirst last isLast
  have firstMember := mem_filter.mp (mem_of_head? isFirst)
  have firstKey : first.txEntryKey = key := by simpa using firstMember.2
  subst firstKey
  have at_row := same first.rowKey
  rw [lastImage_coalesce, lastImage_changes, filter_rowKey_eq separate firstMember.1,
    get_coalesce] at at_row
  have key : first.rowKey.1 ++ ":" ++ first.rowKey.2 = first.txEntryKey := rfl
  rw [key, isFirst, isLast] at at_row
  simp only [bind_some, map_some] at at_row
  rw [if_pos (mergedWith_rowKey first last)] at at_row
  simp only [mergedWith_kind, mergedWith_tuple, some.injEq, OpKind.image]
    at at_row
  by_cases firstDeletes : first.kind = .delete <;> by_cases lastDeletes : last.kind = .delete <;>
    simp_all

end

theorem coalesce_replay_iff (changes : List (Change V)) :
    (∀ store, replay store ((coalesce changes).entries.map fun row => row.2.op) =
        replay store (changes.map op)) ↔
      KeysSeparate changes ∧ EndKindsAgree changes := by
  have : Nonempty (EntryTuple V) := ⟨.absent⟩
  rw [replay_eq_iff]
  constructor
  · exact fun same => ⟨keysSeparate_of_lastImage same, endKindsAgree_of_lastImage same⟩
  · rintro ⟨separate, agree⟩ row
    exact lastImage_coalesce_of_agree separate agree row

end PgWalk
