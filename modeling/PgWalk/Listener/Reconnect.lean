import Mathlib.Data.List.Dedup
import PgWalk.Listener.Isolation

/-! A lost connection: the server sends a transaction again whose beginning is cached already. -/

namespace PgWalk

open List hiding ext_get

open RelationVersion TxList Option

open PGBufferedListener

variable {V : Type}

theorem dedup_snoc {Key : Type*} [DecidableEq Key] (keys : List Key) (key : Key) :
    (keys ++ [key]).dedup = (keys.dedup.filter fun other => other ≠ key) ++ [key] := by
  -- The first key is not repeated, but it may be the last one.
  induction keys with
  | nil => simp
  | cons first rest ih =>
    rw [cons_append]
    by_cases later : first ∈ rest
    · rw [dedup_cons_of_mem (by simp [later]), dedup_cons_of_mem later, ih]
    · rw [dedup_cons_of_notMem later]
      by_cases same : first = key
      · rw [dedup_cons_of_mem (by simp [same]), ih]
        simp [same]
      · rw [dedup_cons_of_notMem (by simp [later, same]), ih]
        simp [same]

namespace TxList

theorem entries_eq (txl : TxList V) : txl.entries = (txl.entries.map Prod.fst).filterMap fun key =>
      (txl.get key).map fun entry => (key, entry) := by
  rw [filterMap_map]
  symm
  refine (filterMap_congr fun element member => ?_).trans filterMap_some
  have found := (mem_entries_iff txl element.1 element.2).mp member
  simp [found]

theorem ext_get {one other : TxList V}
    (keys : one.entries.map Prod.fst = other.entries.map Prod.fst)
    (rows : ∀ key, one.get key = other.get key) : one.entries = other.entries := by
  rw [one.entries_eq, other.entries_eq, keys]
  simp [rows]

end TxList

/-- The keys of the merged rows stand in the order of their last changes. -/
theorem coalesce_keys (changes : List (Change V)) :
    (coalesce changes).entries.map Prod.fst = (changes.map Change.txEntryKey).dedup := by
  -- A key that is new is not among the keys that stay.
  induction changes using List.reverseRecOn with
  | nil => rfl
  | append_singleton changes change ih =>
    rw [coalesce_snoc, map_append, map_singleton, dedup_snoc, ← ih]
    cases used : (coalesce changes).get change.txEntryKey with
    | some entry =>
      rw [cache_entries_of_some used, List.map_append, List.filter_map]
      rfl
    | none =>
      have absent : ∀ key ∈ (coalesce changes).entries.map Prod.fst,
          key ≠ change.txEntryKey := by
        intro key member same
        obtain ⟨element, stored, named⟩ := mem_map.mp member
        have found := (mem_entries_iff _ element.1 element.2).mp stored
        rw [named, same, used] at found
        cases found
      rw [cache_entries_of_none used, map_append,
        filter_eq_self.mpr fun key member => by simpa using absent key member]
      rfl

variable {front msgs : List LogicalMessage} {rl : PGBufferedListener V} {changes : List (Change V)}
  {name : String}

/-- Changes read again from the start merge to the same. -/
theorem coalesce_again {early : List (Change V)} (beginning : early <+: changes) :
    (coalesce (early ++ changes)).entries = (coalesce changes).entries := by
  refine ext_get ?_ fun key => ?_
  · rw [coalesce_keys, coalesce_keys, map_append]
    exact List.Subset.dedup_append_right (map_subset _ beginning.subset)
  · rw [get_coalesce, get_coalesce]
    have split : changesAt (early ++ changes) key = changesAt early key ++ changesAt changes key :=
      filter_append _ _
    have front : changesAt early key <+: changesAt changes key := beginning.filter _
    rw [split]
    generalize changesAt early key = before at front
    generalize changesAt changes key = all at front
    cases before with
    | nil => rfl
    | cons first rest =>
      obtain ⟨behind, rfl⟩ := front
      simp [getLast?_append, getLast?_cons]

def ChangeMessage.relationID : ChangeMessage → Nat
  | .insert msg => msg.relationID
  | .update msg => msg.relationID
  | .delete msg => msg.relationID

/-- Messages sent between the begin and commit of a whole transaction. -/
def InTransaction : LogicalMessage → Prop
  | .change msg => msg.xid = 0
  | .relation _ _ | .truncate | .type | .origin | .decoding _ => True
  | _ => False

def Describes (relationID : Nat) : LogicalMessage → Prop
  | .relation rel _ => rel.relationID = relationID
  | _ => False

/-- The tables published when a message that asks for them is handled. -/
def listed : LogicalMessage → List Table
  | .relation _ (.ok pubTables) => pubTables
  | _ => []

/-- The tables read from the publication while messages are handled. -/
def listedBy (msgs : List LogicalMessage) : List Table := msgs.flatMap listed

/-- The joined name of the table a relation describes. -/
def RelationMessage.tableKey (rel : RelationMessage) : String :=
  (makeTableName rel.schema rel.relationName).fullName

/-- A table is filed alike whether or not the messages came before. -/
def Settled (rl : PGBufferedListener V) (msgs front : List LogicalMessage) (name : String) : Prop :=
  (∃ pubTable ∈ listedBy front, pubTable.fullName = name) ∨
    ∀ pubTable ∈ listedBy msgs, pubTable.fullName = name →
      mergePubTable rl.tables pubTable = .ok rl.tables

/-- A transaction's descriptions come before the changes they are for. -/
def Described (rl : PGBufferedListener V) (msgs : List LogicalMessage) : Prop :=
  ∀ front msg rest, msgs = front ++ msg :: rest →
    match msg with
    | .relation rel _ => Settled rl msgs (front ++ [msg]) rel.tableKey
    | .change change =>
      (∃ earlier ∈ front, Describes change.relationID earlier) ∨
        (∀ other ∈ msgs, ¬ Describes change.relationID other) ∧
          ∀ known, rl.relations change.relationID = some known →
            Settled rl msgs front known.rel.tableKey
    | _ => True

namespace PGBufferedListener

/-- What a message does to the listener inside a transaction sent whole. -/
inductive Handles (rl : PGBufferedListener V) : LogicalMessage → PGBufferedListener V → Prop
  | relation {rel : RelationMessage} {publication : Except Fault (List Table)}
      {next : PGBufferedListener V} (done : rl.onRelation rel publication = .ok next) :
      Handles rl (.relation rel publication) next
  | change {msg : ChangeMessage} {change : Change V} (outside : msg.xid = 0)
      (read : rl.changeOf msg = .ok change) :
      Handles rl (.change msg) (rl.cacheChange rl.currentXID change)
  | other {msg : LogicalMessage} (noRelation : ∀ rel publication, msg ≠ .relation rel publication)
      (noChange : ∀ change, msg ≠ .change change) : Handles rl msg rl

variable {last next rl : PGBufferedListener V} {msgs : List LogicalMessage} {msg : LogicalMessage}

/-- Inside a transaction a message is handled in one of these ways. -/
theorem handles_of_step (inside : InTransaction msg) (taken : listenerStep rl msg = some next) :
    rl.Handles msg next := by
  simp only [listenerStep, map_eq_some_iff] at taken
  obtain ⟨⟨after, reqs⟩, succeeded, rfl⟩ := taken
  cases handling (toOption_eq_some.mp succeeded) with
  | relation done => exact .relation done
  | @change msg _ read =>
    have outside : msg.xid = 0 := inside
    rw [xidFromMsgOrCurrent, if_pos outside]
    exact .change outside read
  | truncate | type | origin | decoding => exact .other (by simp) (by simp)
  | txBegin | txCommit | ignored | streamStart | streamStop | streamCommit | streamAbort =>
    exact absurd inside (by simp [InTransaction])

/-- A message that is handled is a step. -/
theorem Handles.step (inside : InTransaction msg) (handles : rl.Handles msg next) :
    listenerStep rl msg = some next := by
  cases handles with
  | @relation rel publication next done =>
    have handled : rl.handle (.relation rel publication) = .ok (next, []) := by
      simp only [handle, done]
      rfl
    exact listenerStep_of_handle handled
  | change outside read =>
    exact listenerStep_of_handle
      (handle_change read (by rw [xidFromMsgOrCurrent, if_pos outside]))
  | other noRelation noChange =>
    cases msg with
    | relation rel publication => exact absurd rfl (noRelation rel publication)
    | change msg => exact absurd rfl (noChange msg)
    | truncate | type | origin | decoding => rfl
    | txBegin | txCommit | streamStart | streamStop | streamCommit | streamAbort =>
      exact absurd inside (by simp [InTransaction])

def reads (rl : PGBufferedListener V) : LogicalMessage → Option (Change V)
  | .change msg => (rl.changeOf msg).toOption
  | _ => none

/-- The changes some messages are read as, one after the other. -/
def readsOf : PGBufferedListener V → List LogicalMessage → List (Change V)
  | _, [] => []
  | rl, msg :: rest =>
    (rl.reads msg).toList ++ (listenerStep rl msg).elim [] fun next => readsOf next rest

theorem readsOf_append {mid : PGBufferedListener V} {front : List LogicalMessage}
    (reached : Runs.run listenerStep rl front = some mid) (rest : List LogicalMessage) :
    rl.readsOf (front ++ rest) = rl.readsOf front ++ mid.readsOf rest := by
  induction front generalizing rl with
  | nil =>
    cases reached
    rfl
  | cons msg front ih =>
    obtain ⟨next, taken, later⟩ := Runs.run_cons.mp reached
    simp [readsOf, taken, ih later]

/-- No change read from the stream is a snapshot read. -/
theorem kind_of_mem_readsOf : ∀ change ∈ rl.readsOf msgs, change.kind ≠ .snapshotRead := by
  induction msgs generalizing rl with
  | nil => simp [readsOf]
  | cons msg rest ih =>
    intro change member
    rcases mem_append.mp member with here | later
    · cases msg with
      | change msg =>
        cases read : rl.changeOf msg with
        | error fault => simp [reads, read, Except.toOption] at here
        | ok result =>
          obtain rfl : change = result := by simpa [reads, read, Except.toOption] using here
          exact changeOf_kind read
      | _ => simp [reads] at here
    · cases taken : listenerStep rl msg with
      | none => simp [taken] at later
      | some next =>
        simp only [taken, elim_some] at later
        exact ih change later

/-- The messages of a transaction merge what they are read as into its rows. -/
theorem cached_run (inside : ∀ msg ∈ msgs, InTransaction msg)
    (reached : Runs.run listenerStep rl msgs = some last) : last.currentXID = rl.currentXID ∧
      (last.txCache rl.currentXID).getD newTxList = (rl.readsOf msgs).foldl TxList.cache
          ((rl.txCache rl.currentXID).getD newTxList) := by
  -- A change is merged into the rows; other messages leave them alone.
  induction msgs generalizing rl with
  | nil =>
    cases reached
    exact ⟨rfl, rfl⟩
  | cons msg rest ih =>
    obtain ⟨next, taken, later⟩ := Runs.run_cons.mp reached
    obtain ⟨current, merged⟩ := ih (fun other member => inside other (by simp [member])) later
    simp only [readsOf, taken, elim_some, foldl_append]
    cases handles_of_step (inside msg (by simp)) taken with
    | relation done =>
      obtain ⟨cache, same⟩ := onRelation_frame done
      rw [same, cache] at merged
      exact ⟨current.trans same, merged⟩
    | change outside read =>
      refine ⟨current, merged.trans ?_⟩
      simp [reads, read, Except.toOption, cacheChange]
    | other noRelation noChange =>
      have none : rl.reads msg = none := by
        cases msg with
        | change msg => exact absurd rfl (noChange msg)
        | _ => rfl
      rw [none]
      exact ⟨current, merged⟩

/-- Listeners of one schema read the messages of a transaction alike. -/
theorem readsOf_of_schema {other : PGBufferedListener V}
    (inside : ∀ msg ∈ msgs, InTransaction msg) (same : other.schema = rl.schema)
    (reached : Runs.run listenerStep rl msgs = some last) : other.readsOf msgs = rl.readsOf msgs ∧
      ∃ otherLast, Runs.run listenerStep other msgs = some otherLast ∧
        otherLast.schema = last.schema := by
  -- The other listener handles each message in the same way.
  induction msgs generalizing rl other with
  | nil =>
    cases reached
    exact ⟨rfl, other, rfl, same⟩
  | cons msg rest ih =>
    obtain ⟨next, taken, later⟩ := Runs.run_cons.mp reached
    have here := inside msg (by simp)
    have follows : ∃ otherNext, other.Handles msg otherNext ∧ otherNext.schema = next.schema := by
      cases handles_of_step here taken with
      | relation done =>
        obtain ⟨otherNext, otherDone, described⟩ := onRelation_of_schema same done
        exact ⟨otherNext, .relation otherDone, described⟩
      | change outside read =>
        rw [← changeOf_schema, ← same, changeOf_schema] at read
        exact ⟨_, .change outside read, same⟩
      | other noRelation noChange => exact ⟨other, .other noRelation noChange, same⟩
    obtain ⟨otherNext, handles, described⟩ := follows
    have otherTaken := handles.step here
    have read : other.reads msg = rl.reads msg := by
      cases msg with
      | change msg => simp only [reads, ← changeOf_schema other, same, changeOf_schema]
      | _ => rfl
    obtain ⟨reads, otherLast, ended⟩ :=
      ih (fun item member => inside item (by simp [member])) described later
    refine ⟨?_, otherLast, Runs.run_cons.mpr ⟨otherNext, otherTaken, ended.1⟩, ended.2⟩
    simp [readsOf, taken, otherTaken, read, reads]

end PGBufferedListener

theorem listedBy_snoc (front : List LogicalMessage) (msg : LogicalMessage) :
    listedBy (front ++ [msg]) = listedBy front ++ listed msg := by
  simp [listedBy]

theorem listedBy_beginning (beginning : front <+: msgs) : listedBy front <+: listedBy msgs := by
  obtain ⟨rest, rfl⟩ := beginning
  exact ⟨listedBy rest, by simp [listedBy]⟩

theorem Settled.snoc (settled : Settled rl msgs front name) (msg : LogicalMessage) :
    Settled rl msgs (front ++ [msg]) name := by
  rcases settled with ⟨pubTable, member, named⟩ | kept
  · refine .inl ⟨pubTable, ?_, named⟩
    rw [listedBy_snoc]
    exact mem_append_left _ member
  · exact .inr kept

/-- A settled table is filed alike after a first and a second reading. -/
theorem Settled.filedUnder_eq {early : List LogicalMessage}
    {once again : List (String × PGTableWithConfig)} (settled : Settled rl msgs front name)
    (earlyPrefix : early <+: msgs) (frontPrefix : front <+: msgs)
    (filedOnce : (listedBy front).foldlM mergePubTable rl.tables = .ok once)
    (filedAgain : (listedBy early ++ listedBy front).foldlM mergePubTable rl.tables = .ok again) :
    filedUnder again name = filedUnder once name := by
  rw [filedUnder_foldlM filedOnce, filedUnder_foldlM filedAgain, filter_append]
  refine foldl_refile_again ?_ ?_ ?_
  · -- Both are beginnings of the same messages.
    rcases prefix_or_prefix_of_prefix earlyPrefix frontPrefix with short | long
    · exact .inl ((listedBy_beginning short).filter _)
    · exact .inr ((listedBy_beginning long).filter _)
  · rcases settled with ⟨pubTable, member, named⟩ | kept
    · exact .inl (ne_nil_of_mem (mem_filter.mpr ⟨member, by simpa using named⟩))
    · refine .inr fun pubTable member => ?_
      obtain ⟨stored, named⟩ := mem_filter.mp member
      have named : pubTable.fullName = name := by simpa using named
      have same := filedUnder_mergePubTable
        (kept pubTable ((listedBy_beginning earlyPrefix).subset stored) named) name
      rw [if_pos named] at same
      exact same.symm
  · intro pubTable member cfg configured
    rw [← filter_append] at member
    obtain ⟨stored, named⟩ := mem_filter.mp member
    have named : pubTable.fullName = name := by simpa using named
    refine foldlM_mergePubTable_ok_iff.mp ⟨again, filedAgain⟩ pubTable stored cfg ?_
    rw [named]
    exact configured

/-- How a relation is read, without the number of its version. -/
def RelationVersion.reading (rel : RelationVersion) : RelationMessage × KeyMap :=
  (rel.rel, rel.keyMap)

namespace PGBufferedListener

/-- A change is read alike where its relation and table are known alike. -/
theorem changeOf_congr {rl other : PGBufferedListener V} {msg : ChangeMessage}
    (codec : other.codec = rl.codec)
    (relation : (other.relations msg.relationID).map reading =
      (rl.relations msg.relationID).map reading)
    (table : ∀ known, rl.relations msg.relationID = some known →
      filedUnder other.tables known.rel.tableKey = filedUnder rl.tables known.rel.tableKey) :
    other.changeOf msg = rl.changeOf msg := by
  -- The relation decides the table, and the table how tuples are read.
  cases known : rl.relations msg.relationID with
  | none =>
    rw [known, map_none, map_eq_none_iff] at relation
    have fails : ∀ listener : PGBufferedListener V, listener.relations msg.relationID = none →
        listener.changeOf msg =
          .error (.error ("relation not found: " ++ toString msg.relationID)) := by
      intro listener unknown
      cases msg <;>
        simp only [ChangeMessage.relationID] at unknown ⊢ <;>
        simp [changeOf, findRelation, unknown] <;> rfl
    rw [fails other relation, fails rl known]
  | some rel =>
    rw [known, map_some, map_eq_some_iff] at relation
    obtain ⟨otherRel, otherKnown, same⟩ := relation
    simp only [reading, Prod.mk.injEq] at same
    have filed : other.getTable (makeTableName rel.rel.schema rel.rel.relationName) =
        rl.getTable (makeTableName rel.rel.schema rel.rel.relationName) := table rel known
    cases msg <;>
      simp only [ChangeMessage.relationID] at known otherKnown <;>
      simp [changeOf, findRelation, known, otherKnown, bind, Except.bind, pure, Except.pure,
        readChange, readRelTuple, getReadIndexes, same.1, same.2, filed, codec]

end PGBufferedListener

/-- What a transaction's messages leave of the way messages are read. -/
structure Leaves (rl : PGBufferedListener V) (msgs : List LogicalMessage)
    (last : PGBufferedListener V) : Prop where
  codec : last.codec = rl.codec
  txOptions : last.txOptions = rl.txOptions
  filed : (listedBy msgs).foldlM mergePubTable rl.tables = .ok last.tables
  complete : (∀ msg ∈ msgs, ∀ rel publication, msg ≠ .relation rel publication) ∨
    ∀ item ∈ last.tables, item.2.table.isSome
  kept : ∀ relationID, (∀ msg ∈ msgs, ¬ Describes relationID msg) →
    last.relations relationID = rl.relations relationID

namespace Leaves

variable {rl mid last : PGBufferedListener V} {msg : LogicalMessage}

/-- One handled message leaves what it says. -/
theorem of_handles (handles : rl.Handles msg last) : Leaves rl [msg] last := by
  cases handles with
  | relation done =>
    obtain ⟨pubTables, tables, pgTable, rfl, filed, complete, -, rfl⟩ := onRelation_eq_ok.mp done
    refine ⟨rfl, rfl, ?_, .inr complete, fun relationID other => ?_⟩
    · simpa [listedBy, listed, described] using filed
    · refine Function.update_of_ne (fun same => ?_) _ _
      exact other _ (mem_singleton.mpr rfl) same.symm
  | change outside read => exact ⟨rfl, rfl, rfl, .inl (by simp), fun _ _ => rfl⟩
  | other noRelation noChange =>
    have none : listed msg = [] := by
      cases msg with
      | relation rel publication => exact absurd rfl (noRelation rel publication)
      | _ => rfl
    refine ⟨rfl, rfl, ?_, .inl (by simpa using noRelation), fun _ _ => rfl⟩
    simp [listedBy, none, pure, Except.pure]

/-- What two parts of a list leave, the whole list leaves. -/
theorem trans {front rest : List LogicalMessage} (first : Leaves rl front mid)
    (second : Leaves mid rest last) : Leaves rl (front ++ rest) last where
  codec := second.codec.trans first.codec
  txOptions := second.txOptions.trans first.txOptions
  filed := by
    have split : listedBy (front ++ rest) = listedBy front ++ listedBy rest := by
      simp [listedBy]
    rw [split, foldlM_append]
    exact bind_eq_ok.mpr ⟨mid.tables, first.filed, second.filed⟩
  complete := by
    rcases second.complete with quiet | complete
    · rcases first.complete with earlier | complete
      · refine .inl fun msg member => ?_
        rcases mem_append.mp member with here | later
        · exact earlier msg here
        · exact quiet msg later
      · exact .inr (foldlM_mergePubTable_complete complete second.filed)
    · exact .inr complete
  kept := fun relationID other =>
    (second.kept relationID fun msg member => other msg (mem_append_right _ member)).trans
      (first.kept relationID fun msg member => other msg (mem_append_left _ member))

variable {msgs : List LogicalMessage}

theorem run (inside : ∀ msg ∈ msgs, InTransaction msg)
    (reached : Runs.run listenerStep rl msgs = some last) : Leaves rl msgs last := by
  induction msgs generalizing rl with
  | nil =>
    cases reached
    exact ⟨rfl, rfl, rfl, .inl (by simp), fun _ _ => rfl⟩
  | cons msg rest ih =>
    obtain ⟨next, taken, later⟩ := Runs.run_cons.mp reached
    have here := of_handles (handles_of_step (inside msg (by simp)) taken)
    exact here.trans (ih (fun other member => inside other (by simp [member])) later)

theorem of_schema {other : PGBufferedListener V} (leaves : Leaves rl msgs last)
    (same : rl.schema = other.schema) : Leaves other msgs last := by
  simp only [schema, PGBufferedListener.mk.injEq] at same
  obtain ⟨codec, -, txOptions, -, relations, tables, -, -⟩ := same
  exact ⟨codec ▸ leaves.codec, txOptions ▸ leaves.txOptions, tables ▸ leaves.filed,
    leaves.complete, relations ▸ leaves.kept⟩

theorem tables_of_quiet (leaves : Leaves rl msgs last)
    (quiet : ∀ msg ∈ msgs, ∀ rel publication, msg ≠ .relation rel publication) :
    last.tables = rl.tables := by
  have none : listedBy msgs = [] := by
    refine flatMap_eq_nil_iff.mpr fun msg member => ?_
    cases msg with
    | relation rel publication => exact absurd rfl (quiet _ member rel publication)
    | _ => rfl
  have filed := leaves.filed
  rw [none] at filed
  exact (Except.ok.inj filed).symm

end Leaves

/-- A listener that saw a beginning of the messages reads them as new. -/
structure Rereads (rl : PGBufferedListener V) (early msgs front : List LogicalMessage)
    (once again : PGBufferedListener V) : Prop where
  onceLeaves : Leaves rl front once
  againLeaves : Leaves rl (early ++ front) again
  relations : ∀ relationID, (∃ earlier ∈ front, Describes relationID earlier) →
    (again.relations relationID).map reading = (once.relations relationID).map reading ∧
      ∀ known, once.relations relationID = some known → Settled rl msgs front known.rel.tableKey

namespace Rereads

variable {rl once again onceNext : PGBufferedListener V} {early msgs front : List LogicalMessage}

theorem filed (rereads : Rereads rl early msgs front once again) (earlyPrefix : early <+: msgs)
    (frontPrefix : front <+: msgs) {name : String} (settled : Settled rl msgs front name) :
    filedUnder again.tables name = filedUnder once.tables name := by
  refine settled.filedUnder_eq earlyPrefix frontPrefix rereads.onceLeaves.filed ?_
  have filed := rereads.againLeaves.filed
  rwa [listedBy, flatMap_append] at filed

/-- A relation one of them accepts is accepted by the other, alike. -/
theorem relation (rereads : Rereads rl early msgs front once again) (earlyPrefix : early <+: msgs)
    {rel : RelationMessage} {publication : Except Fault (List Table)}
    (frontPrefix : front ++ [.relation rel publication] <+: msgs)
    (settled : Settled rl msgs (front ++ [.relation rel publication]) rel.tableKey)
    (done : once.onRelation rel publication = .ok onceNext) :
    ∃ againNext, again.onRelation rel publication = .ok againNext ∧
      Rereads rl early msgs (front ++ [.relation rel publication]) onceNext againNext := by
  -- Both have the configurations of the beginning, so both accept.
  have onceLeaves := rereads.onceLeaves.trans (.of_handles (.relation done))
  obtain ⟨pubTables, tables, pgTable, rfl, merged, complete, found, rfl⟩ := onRelation_eq_ok.mp done
  have accepted : ∃ filed, pubTables.foldlM mergePubTable again.tables = .ok filed := by
    refine foldlM_mergePubTable_ok_iff.mpr fun pubTable member cfg configured => ?_
    refine foldlM_mergePubTable_ok_iff.mp ⟨tables, merged⟩ pubTable member cfg ?_
    rw [configUnder_foldlM rereads.onceLeaves.filed, ← configUnder_foldlM rereads.againLeaves.filed]
    exact configured
  obtain ⟨filed, againMerged⟩ := accepted
  have againComplete : ∀ item ∈ filed, item.2.table.isSome := by
    rcases rereads.againLeaves.complete with quiet | all
    · -- Nothing has been described before, so both file the same.
      have same : again.tables = once.tables := by
        rw [rereads.againLeaves.tables_of_quiet quiet, rereads.onceLeaves.tables_of_quiet
          fun msg member => quiet msg (mem_append_right _ member)]
      rw [same, merged] at againMerged
      cases againMerged
      exact complete
    · exact foldlM_mergePubTable_complete all againMerged
  have filedAgain : (listedBy early ++ listedBy (front ++ [.relation rel (.ok pubTables)])).foldlM
      mergePubTable rl.tables = .ok filed := by
    rw [listedBy_snoc, ← append_assoc, foldlM_append]
    refine bind_eq_ok.mpr ⟨again.tables, ?_, againMerged⟩
    have before := rereads.againLeaves.filed
    rwa [listedBy, flatMap_append] at before
  have sameTable : filedUnder filed rel.tableKey = filedUnder tables rel.tableKey :=
    settled.filedUnder_eq earlyPrefix frontPrefix onceLeaves.filed filedAgain
  have againFound : (filedUnder filed rel.tableKey).bind PGTableWithConfig.table =
      some pgTable := by
    rw [sameTable]
    exact found
  have againDone := onRelation_eq_ok.mpr
    ⟨pubTables, filed, pgTable, rfl, againMerged, againComplete, againFound, rfl⟩
  refine ⟨_, againDone, onceLeaves, ?_, fun relationID description => ?_⟩
  · rw [← append_assoc]
    exact rereads.againLeaves.trans (.of_handles (.relation againDone))
  · by_cases here : relationID = rel.relationID
    · -- Both have just been told the relation, and keep the same columns of it.
      subst here
      have options : again.txOptions = once.txOptions :=
        rereads.againLeaves.txOptions.trans rereads.onceLeaves.txOptions.symm
      refine ⟨?_, fun known now => ?_⟩
      · simp [described, reading, options]
      · simp only [described, Function.update_self, some.injEq] at now
        subst now
        exact settled
    · have earlier : ∃ earlier ∈ front, Describes relationID earlier := by
        obtain ⟨msg, member, describes⟩ := description
        rcases mem_append.mp member with before | new
        · exact ⟨msg, before, describes⟩
        · rw [mem_singleton.mp new] at describes
          exact absurd describes.symm here
      obtain ⟨same, tables⟩ := rereads.relations relationID earlier
      simp only [described, Function.update_of_ne here]
      exact ⟨same, fun known now => (tables known now).snoc _⟩

/-- A change is read alike the second time. -/
theorem changeOf (rereads : Rereads rl early msgs front once again) (earlyPrefix : early <+: msgs)
    (frontPrefix : front <+: msgs) {msg : ChangeMessage}
    (described : (∃ earlier ∈ front, Describes msg.relationID earlier) ∨
      (∀ other ∈ msgs, ¬ Describes msg.relationID other) ∧
        ∀ known, rl.relations msg.relationID = some known →
          Settled rl msgs front known.rel.tableKey) :
    again.changeOf msg = once.changeOf msg := by
  have codec : again.codec = once.codec :=
    rereads.againLeaves.codec.trans rereads.onceLeaves.codec.symm
  rcases described with earlier | ⟨never, settled⟩
  · obtain ⟨same, tables⟩ := rereads.relations msg.relationID earlier
    exact changeOf_congr codec same fun known now =>
      rereads.filed earlyPrefix frontPrefix (tables known now)
  · -- The relation has been known before the transaction and is not described in it.
    have onceKept := rereads.onceLeaves.kept msg.relationID fun other member =>
      never other (frontPrefix.subset member)
    have againKept := rereads.againLeaves.kept msg.relationID fun other member => by
      rcases mem_append.mp member with before | later
      · exact never other (earlyPrefix.subset before)
      · exact never other (frontPrefix.subset later)
    refine changeOf_congr codec (by rw [onceKept, againKept]) fun known now => ?_
    exact rereads.filed earlyPrefix frontPrefix (settled known (onceKept ▸ now))

variable {msg : LogicalMessage} {rest : List LogicalMessage}

section

variable (rereads : Rereads rl early msgs front once again)

include rereads

/-- A message that describes nothing leaves both as they are. -/
theorem silent {againNext : PGBufferedListener V} (onceHandles : once.Handles msg onceNext)
    (againHandles : again.Handles msg againNext)
    (other : ∀ rel publication, msg ≠ .relation rel publication)
    (onceSame : onceNext.relations = once.relations)
    (againSame : againNext.relations = again.relations) :
    Rereads rl early msgs (front ++ [msg]) onceNext againNext where
  onceLeaves := rereads.onceLeaves.trans (.of_handles onceHandles)
  againLeaves := by
    rw [← append_assoc]
    exact rereads.againLeaves.trans (.of_handles againHandles)
  relations := by
    rintro relationID ⟨earlier, member, describes⟩
    have before : ∃ earlier ∈ front, Describes relationID earlier := by
      rcases mem_append.mp member with before | new
      · exact ⟨earlier, before, describes⟩
      · rw [mem_singleton.mp new] at describes
        cases msg with
        | relation rel publication => exact absurd rfl (other rel publication)
        | _ => exact describes.elim
    obtain ⟨same, tables⟩ := rereads.relations relationID before
    rw [onceSame, againSame]
    exact ⟨same, fun known now => (tables known now).snoc _⟩

/-- Whatever one of them handles, the other handles and reads alike. -/
theorem step (described : Described rl msgs) (earlyPrefix : early <+: msgs)
    (whole : msgs = front ++ msg :: rest) (handles : once.Handles msg onceNext) :
    ∃ againNext, again.Handles msg againNext ∧ again.reads msg = once.reads msg ∧
      Rereads rl early msgs (front ++ [msg]) onceNext againNext := by
  -- A description is handled again, a change reads the same.
  have here := described front msg rest whole
  have frontPrefix : front ++ [msg] <+: msgs := ⟨rest, by simp [whole]⟩
  cases handles with
  | relation done =>
    obtain ⟨againNext, againDone, next⟩ := rereads.relation earlyPrefix frontPrefix here done
    exact ⟨againNext, .relation againDone, rfl, next⟩
  | change outside read =>
    have same := rereads.changeOf earlyPrefix ⟨_, whole.symm⟩ here
    have againHandles := PGBufferedListener.Handles.change outside (same.trans read)
    refine ⟨_, againHandles, ?_, ?_⟩
    · simp [reads, same]
    · exact rereads.silent (.change outside read) againHandles (by simp) rfl rfl
  | other noRelation noChange =>
    refine ⟨again, .other noRelation noChange, ?_, ?_⟩
    · cases msg with
      | change msg => exact absurd rfl (noChange msg)
      | _ => rfl
    · exact rereads.silent (.other noRelation noChange) (.other noRelation noChange) noRelation
        rfl rfl

/-- A transaction sent again is read alike to its end. -/
theorem run {onceLast : PGBufferedListener V} (described : Described rl msgs)
    (inside : ∀ msg ∈ msgs, InTransaction msg) (earlyPrefix : early <+: msgs)
    (whole : msgs = front ++ rest) (reached : Runs.run listenerStep once rest = some onceLast) :
    again.readsOf rest = once.readsOf rest ∧
      ∃ againLast, Runs.run listenerStep again rest = some againLast := by
  induction rest generalizing front once again with
  | nil => exact ⟨rfl, again, rfl⟩
  | cons msg rest ih =>
    obtain ⟨next, taken, later⟩ := Runs.run_cons.mp reached
    have here : InTransaction msg := inside msg (by simp [whole])
    obtain ⟨againNext, handles, read, rereadsNext⟩ :=
      rereads.step described earlyPrefix whole (handles_of_step here taken)
    have againTaken := handles.step here
    obtain ⟨reads, againLast, ended⟩ := ih rereadsNext (by simp [whole]) later
    refine ⟨?_, againLast, Runs.run_cons.mpr ⟨againNext, againTaken, ended⟩⟩
    simp [readsOf, taken, againTaken, read, reads]

end

end Rereads

theorem cachedRows_of_merged {xid : Nat}
    (merged : (rl.txCache xid).getD newTxList = coalesce changes) :
    rl.cachedRows xid = (coalesce changes).entries := by
  rw [← merged, cachedRows]
  cases rl.txCache xid <;> rfl

/--
A listener that has cached a beginning of a transaction hands over what one hands over that has not,
when the transaction is sent again and describes relations before it changes them or not at all.
-/
theorem replay_harmless {rl fresh freshLast : PGBufferedListener V} {begin : BeginMessage}
    {commit : CommitMessage} {early msgs : List LogicalMessage} (positive : 0 < begin.xid)
    (same : rl.schema = fresh.schema) (clean : rl.txCache begin.xid = none)
    (freshClean : fresh.txCache begin.xid = none) (inside : ∀ msg ∈ msgs, InTransaction msg)
    (described : Described fresh msgs) (beginning : early <+: msgs)
    (once : Runs.run listenerStep fresh (.txBegin begin :: msgs) = some freshLast) :
    ∃ mid last next freshNext req,
      Runs.run listenerStep rl (.txBegin begin :: early) = some mid ∧
      Runs.run listenerStep mid (.txBegin begin :: msgs) = some last ∧
      last.handle (.txCommit commit) = .ok (next, [req]) ∧
      freshLast.handle (.txCommit commit) = .ok (freshNext, [req]) := by
  -- Both attempts read as a listener with nothing cached does.
  have earlyInside : ∀ msg ∈ early, InTransaction msg := fun msg member =>
    inside msg (beginning.subset member)
  have once : Runs.run listenerStep (fresh.onTxBegin begin) msgs = some freshLast := once
  obtain ⟨rest, whole⟩ := beginning
  have split := once
  rw [← whole, Runs.run_append, bind_eq_some_iff] at split
  obtain ⟨freshMid, freshEarly, -⟩ := split
  have begun : (rl.onTxBegin begin).schema = (fresh.onTxBegin begin).schema := same
  obtain ⟨earlyReads, mid, attempted, -⟩ := readsOf_of_schema earlyInside begun freshEarly
  have prefixReads : (fresh.onTxBegin begin).readsOf early <+:
      (fresh.onTxBegin begin).readsOf msgs := by
    rw [← whole, readsOf_append freshEarly]
    exact prefix_append _ _
  have left : Leaves fresh early mid := (Leaves.run earlyInside attempted).of_schema same
  have rereads : Rereads fresh early msgs [] (fresh.onTxBegin begin) (mid.onTxBegin begin) := by
    refine ⟨⟨rfl, rfl, rfl, .inl (by simp), fun _ _ => rfl⟩, ?_, by simp⟩
    rw [append_nil]
    exact ⟨left.codec, left.txOptions, left.filed, left.complete, left.kept⟩
  obtain ⟨reads, last, replayed⟩ := rereads.run described inside ⟨rest, whole⟩ rfl once
  -- What is cached is merged from the beginning and from all changes.
  obtain ⟨midCurrent, midMerged⟩ := cached_run earlyInside attempted
  obtain ⟨lastCurrent, lastMerged⟩ := cached_run inside replayed
  obtain ⟨freshCurrent, freshMerged⟩ := cached_run inside once
  have freshRows : freshLast.cachedRows begin.xid =
      (coalesce ((fresh.onTxBegin begin).readsOf msgs)).entries := by
    refine cachedRows_of_merged (freshMerged.trans ?_)
    simp [onTxBegin, freshClean, coalesce]
  have lastRows : last.cachedRows begin.xid =
      (coalesce ((fresh.onTxBegin begin).readsOf msgs)).entries := by
    rw [← coalesce_again prefixReads]
    refine cachedRows_of_merged (lastMerged.trans ?_)
    have start : (mid.txCache begin.xid).getD newTxList =
        ((fresh.onTxBegin begin).readsOf early).foldl cache newTxList := by
      refine midMerged.trans ?_
      rw [earlyReads]
      simp [onTxBegin, clean]
    rw [reads, coalesce, foldl_append, ← start]
    rfl
  have sent := sendToLSNTracker_eq lastRows kind_of_mem_readsOf commit.transactionEndLSN
    commit.commitTime
  have freshSent := sendToLSNTracker_eq freshRows kind_of_mem_readsOf commit.transactionEndLSN
    commit.commitTime
  exact ⟨mid, last, _, _, _, attempted, replayed, handle_txCommit lastCurrent positive sent,
    handle_txCommit freshCurrent positive freshSent⟩

namespace Sample

/-- The table after its second column has been renamed. -/
def renamedUsers : Table :=
  { users with columns := [⟨"id", 23, true, 1⟩, ⟨"title", 25, false, 2⟩] }

/-- The renamed table as its relation message describes it. -/
def renamedRelation : RelationMessage :=
  { usersRelation with columns := [⟨"id", 23⟩, ⟨"title", 25⟩] }

/-- A transaction on a new connection: its relation is described first. -/
def describedTx : List LogicalMessage :=
  [.relation usersRelation (.ok [users]), .change insertUser, .change updateUser]

/-- A transaction that renames a column between two changes. -/
def renamingTx : List LogicalMessage :=
  [.change insertUser, .relation renamedRelation (.ok [renamedUsers]),
    .change (.insert ⟨0, 16384, user 50 98⟩)]

theorem described_describedTx : Described listener describedTx := by
  intro front msg rest whole
  rcases front with _ | ⟨first, front⟩
  · obtain ⟨rfl, -⟩ := List.cons.inj whole
    exact .inl ⟨users, by simp [listedBy, listed], rfl⟩
  · -- Behind the description there are changes of the relation only.
    obtain ⟨rfl, behind⟩ := List.cons.inj whole
    have member : msg ∈ [LogicalMessage.change insertUser, .change updateUser] := by
      rw [behind]
      exact mem_append_right _ mem_cons_self
    simp only [mem_cons, not_mem_nil, or_false] at member
    rcases member with rfl | rfl <;> exact .inl ⟨_, mem_cons_self, rfl⟩

end Sample

open Sample

/-- The connection is lost before the update of a described relation. -/
theorem replay_harmless_before_update :
    ∃ mid last next freshLast freshNext req,
      Runs.run listenerStep listener (.txBegin ⟨100, 8⟩ :: describedTx.take 2) = some mid ∧
      Runs.run listenerStep mid (.txBegin ⟨100, 8⟩ :: describedTx) = some last ∧
      last.handle commit = .ok (next, [req]) ∧
      Runs.run listenerStep listener (.txBegin ⟨100, 8⟩ :: describedTx) = some freshLast ∧
      freshLast.handle commit = .ok (freshNext, [req]) := by
  obtain ⟨freshLast, once⟩ : ∃ freshLast, Runs.run listenerStep listener
      (.txBegin ⟨100, 8⟩ :: describedTx) = some freshLast := ⟨_, rfl⟩
  have inside : ∀ msg ∈ describedTx, InTransaction msg := by
    simp [describedTx, InTransaction, insertUser, updateUser, ChangeMessage.xid]
  obtain ⟨mid, last, next, freshNext, req, attempted, replayed, handed, freshHanded⟩ :=
    @replay_harmless _ listener _ _ _ ⟨100, 110, 0⟩ _ _
      (show 0 < BeginMessage.xid ⟨100, 8⟩ by decide) rfl rfl rfl inside
      described_describedTx ( take_prefix 2 _) once
  exact ⟨mid, last, next, freshLast, freshNext, req, attempted, replayed, handed, once, freshHanded⟩

/-- After a rename and a lost connection a change is read anew. -/
theorem replay_reads_renamed :
    ∃ mid last next freshLast freshNext req freshReq,
      Runs.run listenerStep listener (.txBegin ⟨100, 8⟩ :: renamingTx) = some mid ∧
      Runs.run listenerStep mid (.txBegin ⟨100, 8⟩ :: renamingTx) = some last ∧
      last.handle commit = .ok (next, [req]) ∧
      Runs.run listenerStep listener (.txBegin ⟨100, 8⟩ :: renamingTx) = some freshLast ∧
      freshLast.handle commit = .ok (freshNext, [freshReq]) ∧
      req.entries ≠ freshReq.entries :=
  ⟨_, _, _, _, _, _, _, rfl, rfl, rfl, rfl, rfl, by decide⟩

end PgWalk
