import PgWalk.ParallelIO.Shutdown
import PgWalk.Redis.FlushBatch
import PgWalk.Sqs.QueueMapper

/-! Writing a request to SQS: its rows become messages on the event channel, one after the other. -/

namespace PgWalk.Sqs

open SQSQueueMapper List

open Redis (FlushReport)

variable {V F : Type}

/-- A message for SQS, with what the batch handler reads of it. -/
structure SqsEntry extends SqsBatchEntry where
  lsn : Nat
  xid : Nat
  tableName : TableName
  pk : String
  offset : Nat
  queueConfig : TableQueueConfig
  deduplicationID : Option String
  groupID : Option String
deriving DecidableEq

/-- The coordinates under which a message is answered. -/
def SqsEntry.response (entry : SqsEntry) : ResponseEntry :=
  ⟨entry.lsn, entry.xid, entry.offset, entry.tableName⟩

structure SqsWriter where
  queueMapper : SQSQueueMapper
  -- Whether commit times are written, and under which name.
  txTimeOpts : TxCommitTimeOptions

/-- The word for an operation, empty for rows of a snapshot. -/
def kindWord : OpKind → String
  | .insert => "insert"
  | .update => "update"
  | .delete => "delete"
  | .snapshotRead => ""

/-- Add a text to a tuple's JSON, in the tuple where it has that column. -/
def addMember (lib : SqsLib V F) (om : OrderedMap V) (custom : List (String × Option V))
    (key text : String) : Except Fault (OrderedMap V × List (String × Option V)) :=
  match om.get key with
  | some _ => do
    let om ← om.setValue key (some (lib.ofText text))
    return (om, custom)
  | none => .ok (om, custom ++ [(key, some (lib.ofText text))])

def members (om : OrderedMap V) : List (String × Option V) :=
  om.keyMap.keysArr.filterMap fun key => (om.get key).map fun value => (key, value)

namespace SqsWriter

variable (lib : SqsLib V F) (sw : SqsWriter)

/-- The JSON of a row, and the tuple as it is left behind. -/
def getJSON (entry : WriteEntry V) (commitTime : Nat)
    (needsOpInJSON : Bool) : Except Fault (OrderedMap V × String) := do
  let om ← entry.tuple.deref
  let timed ←
    if sw.txTimeOpts.save then addMember lib om [] sw.txTimeOpts.name (lib.formatTime commitTime)
    else .ok (om, [])
  let worded ←
    if needsOpInJSON ∧ kindWord entry.kind ≠ "" then
      addMember lib timed.1 timed.2 "kind" (kindWord entry.kind)
    else .ok timed
  match Redis.encodeObject lib.toRedisLib (members worded.1 ++ worded.2) with
  | .ok text => .ok (worded.1, text)
  | .error text => .error (.error ("failed to marshal JSON: " ++ text))

/-- The message of a row, with the queue that it goes to. -/
def message (lib : SqsLib V F) (req : WriteRequest V) (entry : WriteEntry V)
    (tableCfg : TableQueueConfig) (json : OrderedMap V × String) : SqsEntry where
  queueURL := tableCfg.queueURL
  message := json.2
  lsn := req.lsn
  xid := req.xid
  tableName := entry.table
  pk := entry.pk
  offset := entry.offset
  queueConfig := tableCfg
  deduplicationID := tableCfg.getDeduplicationID lib entry req.xid
  groupID := tableCfg.getMessageGroupID lib entry json.1 req.xid

/-- The message that is put on the event channel for a row. -/
def enqueueEntry (req : WriteRequest V)
    (entry : WriteEntry V) : Except Fault SqsEntry :=
  match sw.queueMapper.getQueueConfig entry with
  | none => .error (.error ("table configuration not found: \"" ++ entry.table.fullName ++ "\""))
  | some tableCfg => do
    let json ← getJSON lib sw entry req.commitTime tableCfg.needsOpInJSON
    return message lib req entry tableCfg json

/-- The messages put on the event channel, up to a fault if any. -/
def enqueueEntries (lib : SqsLib V F) (sw : SqsWriter) (req : WriteRequest V) :
    List (WriteEntry V) → List SqsEntry × Option Fault
  | [] => ([], none)
  | entry :: rest =>
    match enqueueEntry lib sw req entry with
    | .error fault => ([], some fault)
    | .ok queued =>
      let others := enqueueEntries lib sw req rest
      (queued :: others.1, others.2)

/-- What a call has enqueued and told the tracker, and its fault. -/
structure Enqueued where
  eventCh : List SqsEntry
  reports : List FlushReport
  fault : Option Fault

/-- Enqueue a request's rows, or answer a request without any. -/
def enqueueOrWrite (req : WriteRequest V) : Enqueued :=
  if req.entries.isEmpty then
    ⟨[], [.onSuccess ⟨[⟨req.lsn, req.xid, 0, ⟨"", "", ""⟩⟩]⟩], none⟩
  else
    let queued := enqueueEntries lib sw req req.entries
    ⟨queued.1, [], queued.2⟩

end SqsWriter

open SqsWriter

def rowResponse (req : WriteRequest V) (entry : WriteEntry V) : ResponseEntry :=
  ⟨req.lsn, req.xid, entry.offset, entry.table⟩

/-- A writer's error as the tracker sees it, without circuit breakers. -/
def sqsError : WriterError where
  isRetryable := true
  isDownStreamDown := false

/-- Write a request; report all its rows where one was not written. -/
def write (lib : SqsLib V F) (sw : SqsWriter) (cancelled : Bool) (req : WriteRequest V) :
    Enqueued :=
  if cancelled then ⟨[], [], none⟩
  else
    let done := sw.enqueueOrWrite lib req
    match done.fault with
    | some (.error _) =>
      let respEntries := req.entries.map fun entry => ⟨rowResponse req entry, sqsError⟩
      { done with reports := done.reports ++ [.onError ⟨respEntries⟩], fault := none }
    | _ => done

/-- A row can be enqueued: it has a queue, and there is JSON for it. -/
def Accepts (lib : SqsLib V F) (sw : SqsWriter) (req : WriteRequest V) (entry : WriteEntry V) :
    Prop :=
  ∃ tableCfg json, sw.queueMapper.getQueueConfig entry = some tableCfg ∧
    sw.getJSON lib entry req.commitTime tableCfg.needsOpInJSON = .ok json

/-- A row ends the write: it has no queue, or no JSON. -/
def Refuses (lib : SqsLib V F) (sw : SqsWriter) (req : WriteRequest V) (entry : WriteEntry V) :
    Prop :=
  sw.queueMapper.getQueueConfig entry = none ∨
    ∃ tableCfg text, sw.queueMapper.getQueueConfig entry = some tableCfg ∧
      sw.getJSON lib entry req.commitTime tableCfg.needsOpInJSON = .error (.error text)

namespace SqsWriter

section Rows

variable {lib : SqsLib V F} {sw : SqsWriter} {req : WriteRequest V}

variable {entry : WriteEntry V}

/-- A row is queued with its own queue and JSON. -/
theorem enqueueEntry_ok_iff {queued : SqsEntry} : sw.enqueueEntry lib req entry = .ok queued ↔
      ∃ tableCfg json, sw.queueMapper.getQueueConfig entry = some tableCfg ∧
        sw.getJSON lib entry req.commitTime tableCfg.needsOpInJSON = .ok json ∧
        message lib req entry tableCfg json = queued := by
  unfold enqueueEntry
  cases sw.queueMapper.getQueueConfig entry with
  | none => simp
  | some tableCfg => simp [bind_eq_ok, Pure.pure, Except.pure]

/-- An accepted row is one that is queued. -/
theorem accepts_iff :
    Accepts lib sw req entry ↔ ∃ queued, sw.enqueueEntry lib req entry = .ok queued := by
  simp only [enqueueEntry_ok_iff, Accepts]
  constructor
  · rintro ⟨tableCfg, json, found, encoded⟩
    exact ⟨_, tableCfg, json, found, encoded, rfl⟩
  · rintro ⟨_, tableCfg, json, found, encoded, -⟩
    exact ⟨tableCfg, json, found, encoded⟩

/-- A refused row is one that ends in an error. -/
theorem refuses_iff :
    Refuses lib sw req entry ↔ ∃ text, sw.enqueueEntry lib req entry = .error (.error text) := by
  unfold Refuses enqueueEntry
  cases sw.queueMapper.getQueueConfig entry with
  | none => simp
  | some tableCfg =>
    cases encoded : sw.getJSON lib entry req.commitTime tableCfg.needsOpInJSON with
    | error fault => simp [encoded, Bind.bind, Except.bind]
    | ok json => simp [encoded, Bind.bind, Except.bind, Pure.pure, Except.pure]

/-- Accepted rows in front are queued first. -/
theorem enqueueEntries_append {before : List (WriteEntry V)}
    (accepted : ∀ entry ∈ before, Accepts lib sw req entry) (after : List (WriteEntry V)) :
    sw.enqueueEntries lib req (before ++ after) =
      ((sw.enqueueEntries lib req before).1 ++ (sw.enqueueEntries lib req after).1,
        (sw.enqueueEntries lib req after).2) := by
  induction before with
  | nil => rfl
  | cons entry rest ih =>
    obtain ⟨queued, here⟩ := accepts_iff.mp (accepted entry mem_cons_self)
    have later := ih fun other member => accepted other (mem_cons_of_mem _ member)
    simp [enqueueEntries, here, later]

/-- The loop ends with an error exactly at the first refused row. -/
theorem enqueueEntries_error_iff {entries : List (WriteEntry V)} :
    (∃ text, (sw.enqueueEntries lib req entries).2 = some (.error text)) ↔
      ∃ before row after, entries = before ++ row :: after ∧
        (∀ entry ∈ before, Accepts lib sw req entry) ∧ Refuses lib sw req row := by
  constructor
  · -- The row is found by going through the rows as the loop does.
    rintro ⟨text, ended⟩
    induction entries with
    | nil => cases ended
    | cons entry rest ih =>
      unfold enqueueEntries at ended
      cases here : sw.enqueueEntry lib req entry with
      | error fault =>
        rw [here] at ended
        cases ended
        exact ⟨[], entry, rest, rfl, by simp, refuses_iff.mpr ⟨text, here⟩⟩
      | ok queued =>
        rw [here] at ended
        obtain ⟨before, row, after, rfl, accepted, refused⟩ := ih ended
        refine ⟨entry :: before, row, after, rfl, ?_, refused⟩
        exact forall_mem_cons.mpr ⟨accepts_iff.mpr ⟨queued, here⟩, accepted⟩
  · rintro ⟨before, row, after, rfl, accepted, refused⟩
    obtain ⟨text, here⟩ := refuses_iff.mp refused
    refine ⟨text, ?_⟩
    rw [enqueueEntries_append accepted]
    simp [enqueueEntries, here]

/-- The rows queued are the first ones, in order. -/
theorem enqueueEntries_responses (entries : List (WriteEntry V)) :
    (sw.enqueueEntries lib req entries).1.map SqsEntry.response <+:
      entries.map (rowResponse req) := by
  induction entries with
  | nil => exact prefix_rfl
  | cons entry rest ih =>
    unfold enqueueEntries
    cases here : sw.enqueueEntry lib req entry with
    | error fault => exact nil_prefix
    | ok queued =>
      obtain ⟨tableCfg, json, -, -, rfl⟩ := enqueueEntry_ok_iff.mp here
      exact cons_prefix_cons.mpr ⟨rfl, ih⟩

/-- Nothing is queued if the first row is not accepted. -/
theorem enqueueEntries_nil_iff {rest : List (WriteEntry V)} :
    (sw.enqueueEntries lib req (entry :: rest)).1 = [] ↔ ¬ Accepts lib sw req entry := by
  rw [accepts_iff, enqueueEntries]
  cases sw.enqueueEntry lib req entry <;> simp

end Rows

end SqsWriter

/-- No row is both refused and accepted. -/
theorem not_accepts_of_refuses {lib : SqsLib V F} {sw : SqsWriter} {req : WriteRequest V}
    {entry : WriteEntry V} (refused : Refuses lib sw req entry) : ¬ Accepts lib sw req entry := by
  rw [accepts_iff]
  rintro ⟨queued, accepted⟩
  obtain ⟨text, ended⟩ := refuses_iff.mp refused
  rw [ended] at accepted
  cases accepted

section Write

variable {lib : SqsLib V F} {sw : SqsWriter} {req : WriteRequest V}

/-- An error is reported for all rows of the request. -/
theorem write_error {text : String}
    (ended : (sw.enqueueEntries lib req req.entries).2 = some (.error text)) :
    write lib sw false req = ⟨(sw.enqueueEntries lib req req.entries).1,
      [.onError ⟨req.entries.map fun entry => ⟨rowResponse req entry, sqsError⟩⟩], none⟩ := by
  have rows : req.entries.isEmpty = false := by
    cases rows : req.entries with
    | nil => simp [rows, enqueueEntries] at ended
    | cons first rest => rfl
  simp [write, enqueueOrWrite, rows, ended]

/-- Without an error nothing is reported. -/
theorem write_silent
    (going : ¬ ∃ text, (sw.enqueueEntries lib req req.entries).2 = some (.error text))
    (resp : ErrResponse) : .onError resp ∉ (write lib sw false req).reports := by
  -- Only an error is turned into a report.
  by_cases empty : req.entries.isEmpty
  · simp [write, enqueueOrWrite, empty]
  · simp only [write, enqueueOrWrite, empty, Bool.false_eq_true, if_false]
    split
    · rename_i text ended
      exact absurd ⟨text, ended⟩ going
    · simp

/-- Nothing is queued if the first row fails. -/
theorem enqueueEntries_empty_iff
    (ended : ∃ text, (sw.enqueueEntries lib req req.entries).2 = some (.error text)) :
    (sw.enqueueEntries lib req req.entries).1 = [] ↔
      ∀ before row after, req.entries = before ++ row :: after →
        (∀ entry ∈ before, Accepts lib sw req entry) → Refuses lib sw req row → before = [] := by
  constructor
  · -- A row before the one that is refused would be on the channel.
    intro empty before row after split accepted refused
    cases before with
    | nil => rfl
    | cons first others =>
      rw [split, cons_append, enqueueEntries_nil_iff] at empty
      exact absurd (accepted first mem_cons_self) empty
  · intro only
    obtain ⟨before, row, after, split, accepted, refused⟩ := enqueueEntries_error_iff.mp ended
    cases only before row after split accepted refused
    rw [split, nil_append, enqueueEntries_nil_iff]
    exact not_accepts_of_refuses refused

end Write

/-- No row reported as failed has been enqueued by the same write. -/
def ReportsUnqueued (done : Enqueued) : Prop :=
  ∀ resp, .onError resp ∈ done.reports → ∀ failed ∈ resp.entries, ∀ queued ∈ done.eventCh,
    queued.response ≠ failed.responseEntry

/--
A write reports no row that it has put on the event channel exactly when a row that is refused
behind rows that are not is the first of its request.
-/
theorem write_reports_unqueued_iff (lib : SqsLib V F) (sw : SqsWriter) (cancelled : Bool)
    (req : WriteRequest V) :
    ReportsUnqueued (write lib sw cancelled req) ↔
      cancelled = true ∨ ∀ before row after, req.entries = before ++ row :: after →
        (∀ entry ∈ before, Accepts lib sw req entry) → Refuses lib sw req row → before = [] := by
  cases cancelled with
  | true => simp [write, ReportsUnqueued]
  | false =>
    simp only [Bool.false_eq_true, false_or]
    by_cases ended : ∃ text, (sw.enqueueEntries lib req req.entries).2 = some (.error text)
    · rw [← enqueueEntries_empty_iff ended]
      obtain ⟨text, ended⟩ := ended
      rw [write_error ended]
      constructor
      · -- Every row on the channel is one of those that are reported.
        intro apart
        apply eq_nil_iff_forall_not_mem.mpr
        intro queued member
        have prefixed := @SqsWriter.enqueueEntries_responses V F lib sw req req.entries
        obtain ⟨entry, row, same⟩ := mem_map.mp (prefixed.subset (mem_map_of_mem member))
        refine apart _ (mem_singleton_self _) ⟨rowResponse req entry, sqsError⟩ ?_ queued
          member same.symm
        exact mem_map.mpr ⟨entry, row, rfl⟩
      · intro empty resp _ failed _ queued member
        simp [empty] at member
    · -- Without an error nothing is reported, and there is no row that could be refused.
      constructor
      · intro _ before row after split accepted refused
        exact absurd (enqueueEntries_error_iff.mpr
          ⟨before, row, after, split, accepted, refused⟩) ended
      · intro _ resp reported
        exact absurd reported (write_silent ended resp)

namespace Sample

/-- Values kept as bytes, which are printed as they are. -/
def lib : SqsLib (List UInt8) Nat where
  toRedisLib := Redis.Sample.lib
  sprint := Redis.Sample.lib.stringify
  encodeToString text := text

/-- One table, with a queue for rows and a section for deletes. -/
def tables (delete : Option SQSQueueConfig) : List (String × SQSTableConfig) :=
  [("public.users", ⟨some {
    name := "users"
    url := "https://queue"
    groupID := ""
    insert := none
    update := none
    delete := delete }⟩)]

/-- The queues of a table for which nothing is said about deletes. -/
def mapper : SQSQueueMapper :=
  ⟨[("public.users-2", ⟨"public.users", "users", "https://queue", false, false, true, ""⟩),
    ("public.users-1", ⟨"public.users", "users", "https://queue", false, false, true, ""⟩),
    ("public.users-0", ⟨"public.users", "users", "https://queue", false, false, true, ""⟩)]⟩

/-- The queues of a table whose deletes are not to be sent. -/
def skippingMapper : SQSQueueMapper :=
  ⟨[("public.users-2", ⟨"public.users", "", "", false, true, false, ""⟩),
    ("public.users-1", ⟨"public.users", "users", "https://queue", false, false, true, ""⟩),
    ("public.users-0", ⟨"public.users", "users", "https://queue", false, false, true, ""⟩)]⟩

/-- A writer that leaves commit times out. -/
def writer (queueMapper : SQSQueueMapper) : SqsWriter := ⟨queueMapper, ⟨false, ""⟩⟩

def row (table : String) (kind : OpKind) (offset : Nat) : WriteEntry (List UInt8) where
  tuple := .pointer (some ⟨[some [49]], [true], 1, ⟨["id"]⟩⟩)
  prevTuple := .absent
  pk := "1"
  kind := kind
  table := makeTableName "public" table
  offset := offset

/-- A transaction with given rows. -/
def request (entries : List (WriteEntry (List UInt8))) : WriteRequest (List UInt8) where
  entries := entries
  lsn := 100
  xid := 7
  commitTime := 5
  isSnapshot := false

end Sample

open Sqs.Sample

/-- An enqueued row is reported as failed, for the next has no queue. -/
theorem write_reports_queued :
    let done := write Sample.lib (writer Sample.mapper) false
      (request [row "users" .insert 0, row "orders" .insert 1])
    done.eventCh.map SqsEntry.response = [⟨100, 7, 0, makeTableName "public" "users"⟩] ∧
      done.reports = [.onError ⟨[⟨⟨100, 7, 0, makeTableName "public" "users"⟩, sqsError⟩,
        ⟨⟨100, 7, 1, makeTableName "public" "orders"⟩, sqsError⟩]⟩] ∧
      ¬ ReportsUnqueued done :=
  ⟨by decide, rfl, fun apart => apart _ (.head _) _ (.head _) _ (.head _) rfl⟩

/-- A request was enqueued as its configuration asks. -/
structure SkipsHonoured (tables : List (String × SQSTableConfig)) (req : WriteRequest V)
    (done : Enqueued) : Prop where
  sent : done.eventCh.map (fun queued => (queued.response, some queued.queueConfig.queueName)) =
    (req.entries.filter fun entry => !skips tables entry).map fun entry =>
      (rowResponse req entry,
        (ownConfig tables entry.table.fullName entry.kind).map TableQueueConfig.queueName)
  acknowledged : ∀ entry ∈ req.entries, skips tables entry = true →
    ∃ resp, .onSuccess resp ∈ done.reports ∧ rowResponse req entry ∈ resp.entries

section Skips

variable {tables : List (String × SQSTableConfig)} {lib : SqsLib V F} {sw : SqsWriter}
  {req : WriteRequest V}

variable {mapper : SQSQueueMapper} {entries : List (WriteEntry V)}

/-- A table keeps its queue, up to what SQS returned. -/
theorem getQueueConfig_own (distinct : Dict.Distinct tables)
    (built : newSQSQueueMapper tables = .ok mapper)
    (used : sw.queueMapper = mapper ∨ ∃ ask, mapper.ping ask = .ok sw.queueMapper)
    (entry : WriteEntry V) :
    ∃ refresh : TableQueueConfig → String × Bool, sw.queueMapper.getQueueConfig entry =
      (ownConfig tables entry.table.fullName entry.kind).map fun qc =>
        qc.update (refresh qc).1 (refresh qc).2 := by
  rw [← getQueueConfig_new distinct built]
  rcases used with same | ⟨ask, pinged⟩
  · -- A queue that SQS has not been asked about is as if it had been told what it says.
    refine ⟨fun qc => (qc.queueURL, qc.fifo), ?_⟩
    rw [same]
    cases mapper.getQueueConfig entry <;> rfl
  · exact getQueueConfig_ping pinged entry

/-- Accepted rows are queued in order, each in its queue. -/
theorem enqueueEntries_accepted (accepted : ∀ entry ∈ entries, Accepts lib sw req entry) :
    (sw.enqueueEntries lib req entries).1.map
        (fun queued => (queued.response, some queued.queueConfig.queueName)) =
      entries.map fun entry => (rowResponse req entry,
        (sw.queueMapper.getQueueConfig entry).map TableQueueConfig.queueName) := by
  induction entries with
  | nil => rfl
  | cons entry rest ih =>
    obtain ⟨here, later⟩ := forall_mem_cons.mp accepted
    obtain ⟨tableCfg, json, found, encoded⟩ := here
    have queued := enqueueEntry_ok_iff.mpr ⟨tableCfg, json, found, encoded, rfl⟩
    simp only [enqueueEntries, queued, map_cons, ih later, found]
    rfl

/-- All rows are queued if all are accepted. -/
theorem enqueueEntries_length_iff : (sw.enqueueEntries lib req entries).1.length = entries.length ↔
      ∀ entry ∈ entries, Accepts lib sw req entry := by
  induction entries with
  | nil => simp [enqueueEntries]
  | cons entry rest ih =>
    rw [forall_mem_cons, accepts_iff, ← ih, enqueueEntries]
    cases sw.enqueueEntry lib req entry <;> simp

/-- A row is accepted if its table has a queue and JSON. -/
theorem accepts_own_iff (distinct : Dict.Distinct tables)
    (built : newSQSQueueMapper tables = .ok mapper)
    (used : sw.queueMapper = mapper ∨ ∃ ask, mapper.ping ask = .ok sw.queueMapper)
    (entry : WriteEntry V) : Accepts lib sw req entry ↔
      ∃ tableCfg json, ownConfig tables entry.table.fullName entry.kind = some tableCfg ∧
        sw.getJSON lib entry req.commitTime tableCfg.needsOpInJSON = .ok json := by
  -- SQS cannot change whether the operation is in the JSON.
  obtain ⟨refresh, same⟩ := getQueueConfig_own distinct built used entry
  unfold Accepts
  rw [same]
  cases ownConfig tables entry.table.fullName entry.kind with
  | none => simp
  | some tableCfg => simp [TableQueueConfig.update]

/--
A request is put on the event channel as its configuration asks exactly when none of its rows is
configured not to be sent, and each has a queue and can be encoded.
-/
theorem skips_honoured_iff (distinct : Dict.Distinct tables) {mapper : SQSQueueMapper}
    (built : newSQSQueueMapper tables = .ok mapper)
    (used : sw.queueMapper = mapper ∨ ∃ ask, mapper.ping ask = .ok sw.queueMapper) :
    SkipsHonoured tables req (sw.enqueueOrWrite lib req) ↔
      ∀ entry ∈ req.entries, skips tables entry = false ∧
        ∃ tableCfg json, ownConfig tables entry.table.fullName entry.kind = some tableCfg ∧
          sw.getJSON lib entry req.commitTime tableCfg.needsOpInJSON = .ok json := by
  -- Without acknowledgement no row may be one that is not sent.
  simp only [← accepts_own_iff distinct built used]
  have all (sent : ∀ entry ∈ req.entries, skips tables entry = false) :
      (req.entries.filter fun entry => !skips tables entry) = req.entries :=
    filter_eq_self.mpr fun entry member => by simp [sent entry member]
  by_cases empty : req.entries = []
  · constructor
    · simp [empty]
    · exact fun _ => ⟨by simp [enqueueOrWrite, empty], by simp [empty]⟩
  · have queue : sw.enqueueOrWrite lib req = ⟨(sw.enqueueEntries lib req req.entries).1, [],
        (sw.enqueueEntries lib req req.entries).2⟩ := by
      simp [enqueueOrWrite, empty]
    rw [queue]
    constructor
    · intro honoured
      have none_skipped : ∀ entry ∈ req.entries, skips tables entry = false := by
        intro entry member
        by_contra skipped
        obtain ⟨resp, reported, -⟩ := honoured.acknowledged entry member (by simpa using skipped)
        cases reported
      -- All rows are on the channel then, as each could be.
      have counted := congrArg List.length honoured.sent
      rw [all none_skipped, length_map, length_map, enqueueEntries_length_iff] at counted
      exact fun entry member => ⟨none_skipped entry member, counted entry member⟩
    · intro fine
      refine ⟨?_, ?_⟩
      · show List.map _ (sw.enqueueEntries lib req req.entries).1 = _
        rw [all fun entry member => (fine entry member).1,
          enqueueEntries_accepted fun entry member => (fine entry member).2]
        apply map_congr_left
        intro entry _
        obtain ⟨refresh, same⟩ := getQueueConfig_own distinct built used entry
        rw [same, Option.map_map]
        rfl
      · intro entry member skipped
        rw [(fine entry member).1] at skipped
        cases skipped

end Skips

/-- Rows of a table whose deletes are not sent, but which are no deletes, are enqueued. -/
theorem skips_honoured_iff_sent :
    SkipsHonoured (Sample.tables (some ⟨"Skip", "", ""⟩))
      (request [row "users" .insert 0, row "users" .update 1])
      ((writer skippingMapper).enqueueOrWrite Sample.lib
        (request [row "users" .insert 0, row "users" .update 1])) := by
  have distinct : Dict.Distinct (Sample.tables (some ⟨"Skip", "", ""⟩)) := nodup_singleton _
  have built : newSQSQueueMapper (Sample.tables (some ⟨"Skip", "", ""⟩)) = .ok skippingMapper := rfl
  refine (skips_honoured_iff distinct built (.inl rfl)).mpr ?_
  intro entry member
  obtain rfl | rfl : entry = row "users" .insert 0 ∨ entry = row "users" .update 1 := by
    simpa [request] using member
  · exact ⟨by decide, _, _, rfl, rfl⟩
  · exact ⟨by decide, _, _, rfl, rfl⟩

/-- A delete configured not to be sent is enqueued for no queue. -/
theorem skipped_delete_queued :
    newSQSQueueMapper (Sample.tables (some ⟨"Skip", "", ""⟩)) = .ok skippingMapper ∧
      skips (Sample.tables (some ⟨"Skip", "", ""⟩)) (row "users" .delete 0) = true ∧
      ((writer skippingMapper).enqueueOrWrite Sample.lib
        (request [row "users" .delete 0])).eventCh.map
          (fun queued => (queued.response, queued.queueURL, queued.message)) =
        [(⟨100, 7, 0, makeTableName "public" "users"⟩, "", "\x7bid:1\x7d")] ∧
      ¬ SkipsHonoured (Sample.tables (some ⟨"Skip", "", ""⟩))
        (request [row "users" .delete 0])
        ((writer skippingMapper).enqueueOrWrite Sample.lib (request [row "users" .delete 0])) := by
  refine ⟨rfl, by decide, by decide, ?_⟩
  intro honoured
  obtain ⟨resp, reported, -⟩ := honoured.acknowledged _ (.head _) rfl
  cases reported

end PgWalk.Sqs
