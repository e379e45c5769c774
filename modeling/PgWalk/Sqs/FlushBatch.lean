import PgWalk.Sqs.Writer

/-! Flushing one batch of messages: SQS answers for all of them, and the tracker is told of each. -/

namespace PgWalk.Sqs

open List

open Redis (FlushReport)

structure SendMessageBatchRequestEntry where
  id : String
  messageBody : String
  messageDeduplicationId : Option String
  messageGroupId : Option String
deriving DecidableEq

structure SendMessageBatchInput where
  entries : List SendMessageBatchRequestEntry
  queueUrl : String
deriving DecidableEq

/-- A message SQS has not taken; its texts are pointers, maybe nil. -/
structure BatchResultErrorEntry where
  id : Option String
  code : Option String
  message : Option String
  senderFault : Bool
deriving DecidableEq

/-- The answer of SQS; only the messages not taken are read. -/
structure SendMessageBatchOutput where
  failed : List BatchResultErrorEntry
deriving DecidableEq

/-- What SQS makes of a request. -/
abbrev SendMessageBatch := SendMessageBatchInput → Except String SendMessageBatchOutput

/-- Messages with identifiers, which are generated in turn. -/
def identified (newID : Nat → String) (index : Nat) : List SqsEntry → List (String × SqsEntry)
  | [] => []
  | batchEntry :: rest => (newID index, batchEntry) :: identified newID (index + 1) rest

def requestEntry (id : String) (batchEntry : SqsEntry) : SendMessageBatchRequestEntry where
  id := id
  messageBody := batchEntry.message
  messageDeduplicationId := batchEntry.deduplicationID
  messageGroupId := batchEntry.groupID

/--
Fill the request, which has room for as many messages as SQS takes, and the map from identifiers to
messages, from a given position on.
-/
def fillBatch (newID : Nat → String) (index : Nat) (batchMap : List (String × SqsEntry))
    (currentBatch : List SendMessageBatchRequestEntry) :
    List SqsEntry →
    Except Fault (List (String × SqsEntry) × List SendMessageBatchRequestEntry)
  | [] => .ok (batchMap, currentBatch)
  | batchEntry :: rest =>
    if index ≥ maxBatchSizeInSQS then .error (.panic "index out of range")
    else
      let id := newID index
      fillBatch newID (index + 1) (Dict.set id batchEntry batchMap)
        (currentBatch ++ [requestEntry id batchEntry]) rest

def pointed {α : Type} : Option α → Except Fault α
  | some value => .ok value
  | none => .error (.panic "nil pointer dereference")

/-- Why SQS has not taken a message, as the tracker sees it. -/
def flushError (senderFault : Bool) : WriterError where
  isRetryable := !senderFault
  isDownStreamDown := false

/-- Why a request has not reached SQS, as the tracker sees it. -/
def sqsSendError : WriterError where
  isRetryable := true
  isDownStreamDown := true

/-- Take the failed messages out of the map; return what is reported. -/
def processFailuresFromSQSResponse (batchMap : List (String × SqsEntry)) :
    List BatchResultErrorEntry →
    Except Fault (List (String × SqsEntry) × List ErrorResponseEntry)
  | [] => .ok (batchMap, [])
  | failedEntry :: rest => do
    let id ← pointed failedEntry.id
    -- The code and the message are written to the log.
    let _ ← pointed failedEntry.code
    let _ ← pointed failedEntry.message
    match batchMap.lookup id with
    | none => .error (.fatal "got unknown ID from SQS")
    | some entry =>
      let others ← processFailuresFromSQSResponse (Dict.delete id batchMap) rest
      return (others.1, ⟨entry.response, flushError failedEntry.senderFault⟩ :: others.2)

/-- What a flush has told the tracker, and the error it returns. -/
structure Flushed where
  reports : List FlushReport
  err : Option String

/-- Report one error for all messages of a batch. -/
def processFailureFromSend (currentEntries : List SqsEntry) : FlushReport :=
  .onError ⟨currentEntries.map fun failedEntry => ⟨failedEntry.response, sqsSendError⟩⟩

/--
Report to the tracker which messages SQS has not taken, and that it has taken the others, in the
order of the map.
-/
def reportResponse (visits : Dict.Visits String SqsEntry) (batchMap : List (String × SqsEntry))
    (sqsResponse : SendMessageBatchOutput) : Except Fault Flushed := do
  let split ← processFailuresFromSQSResponse batchMap sqsResponse.failed
  let errors : List FlushReport :=
    if sqsResponse.failed.isEmpty then [] else [.onError ⟨split.2⟩]
  let okEntries := (visits.visit split.1).map fun keyed => keyed.2.response
  return ⟨errors ++ [.onSuccess ⟨okEntries⟩], none⟩

/-- Flush a batch: send its messages, and report what became of them. -/
def flushBatch (sendMessageBatch : SendMessageBatch) (newID : Nat → String)
    (visits : Dict.Visits String SqsEntry) (queueURL : String) (entries : List SqsEntry) :
    Except Fault Flushed := do
  let filled ← fillBatch newID 0 [] [] entries
  match sendMessageBatch ⟨filled.2, queueURL⟩ with
  | .error text =>
    return ⟨[processFailureFromSend entries], some ("SendMessageBatch error: " ++ text)⟩
  | .ok sqsResponse => reportResponse visits filled.1 sqsResponse

def batchInput (newID : Nat → String) (queueURL : String) (entries : List SqsEntry) :
    SendMessageBatchInput :=
  ⟨(identified newID 0 entries).map fun keyed => requestEntry keyed.1 keyed.2, queueURL⟩

/-- The coordinates of the rows that are reported as failed. -/
def failedRows (reports : List FlushReport) : List ResponseEntry :=
  reports.flatMap fun report => match report with
    | .onError resp => resp.entries.map ErrorResponseEntry.responseEntry
    | .onSuccess _ => []

/-- The coordinates of the rows that are reported as written. -/
def writtenRows (reports : List FlushReport) : List ResponseEntry :=
  reports.flatMap fun report => match report with
    | .onError _ => []
    | .onSuccess resp => resp.entries

/-- A batch's messages are those that failed and those that did not. -/
structure Splits (sent : List (String × SqsEntry))
    (answer : Except String SendMessageBatchOutput) (flushed : Flushed)
    (failed kept : List (String × SqsEntry)) : Prop where
  -- Each message of the batch is in one of the parts, once.
  all : (failed ++ kept).Perm sent
  apart : Dict.Distinct (failed ++ kept)
  onError : failedRows flushed.reports = failed.map fun keyed => keyed.2.response
  onSuccess : writtenRows flushed.reports = kept.map fun keyed => keyed.2.response
  -- The messages that failed are those that SQS names, in its order.
  named : ∀ output, answer = .ok output →
    failed.map (fun keyed => some keyed.1) = output.failed.map BatchResultErrorEntry.id

/-- Identifiers generated at different times differ. -/
theorem identified_distinct {newID : Nat → String} {entries : List SqsEntry} {index : Nat}
    (fresh : ∀ i j, i < index + entries.length → j < index + entries.length →
      newID i = newID j → i = j) :
    Dict.Distinct (identified newID index entries) ∧ ∀ keyed ∈ identified newID index entries,
        ∃ i, index ≤ i ∧ i < index + entries.length ∧ keyed.1 = newID i := by
  induction entries generalizing index with
  | nil => exact ⟨nodup_nil, by simp [identified]⟩
  | cons batchEntry rest ih =>
    rw [length_cons] at fresh
    obtain ⟨distinct, generated⟩ := @ih (index + 1) fun i j below other same =>
      fresh i j (by omega) (by omega) same
    constructor
    · -- The identifiers of the later messages are generated later.
      refine nodup_cons.mpr ⟨?_, distinct⟩
      intro again
      obtain ⟨keyed, member, same⟩ := mem_map.mp again
      obtain ⟨i, later, bounded, named⟩ := generated keyed member
      have equal := fresh i index (by omega) (by omega) (named.symm.trans same)
      omega
    · intro keyed member
      rw [length_cons]
      rcases mem_cons.mp member with rfl | later
      · exact ⟨index, by omega, by omega, rfl⟩
      · obtain ⟨i, above, bounded, named⟩ := generated keyed later
        exact ⟨i, by omega, by omega, named⟩

/-- A batch SQS can take is sent whole, and the map holds it. -/
theorem fillBatch_ok {newID : Nat → String} {entries : List SqsEntry} {index : Nat}
    {batchMap : List (String × SqsEntry)} (currentBatch : List SendMessageBatchRequestEntry)
    (room : index + entries.length ≤ maxBatchSizeInSQS)
    (distinct : Dict.Distinct (identified newID index entries ++ batchMap)) :
    ∃ filled, fillBatch newID index batchMap currentBatch entries = .ok (filled,
        currentBatch ++ (identified newID index entries).map fun keyed =>
          requestEntry keyed.1 keyed.2) ∧
      filled.Perm (identified newID index entries ++ batchMap) := by
  -- The new identifier is new to the map, so a pair is added.
  induction entries generalizing index batchMap currentBatch with
  | nil => exact ⟨batchMap, by simp [fillBatch, identified], List.Perm.refl _⟩
  | cons batchEntry rest ih =>
    rw [length_cons] at room
    have inside : ¬ index ≥ maxBatchSizeInSQS := by omega
    have absent : newID index ∉ batchMap.map Prod.fst := by
      intro member
      have moved := (nodup_cons.mp distinct).1
      exact moved (by simp [member])
    have added : Dict.set (newID index) batchEntry batchMap =
        (newID index, batchEntry) :: batchMap := by
      rw [Dict.set, Dict.delete_of_absent absent]
    have swapped : (identified newID (index + 1) rest ++ (newID index, batchEntry) :: batchMap).Perm
        (identified newID index (batchEntry :: rest) ++ batchMap) := perm_middle
    obtain ⟨filled, done, perm⟩ := @ih (index + 1) ((newID index, batchEntry) :: batchMap)
      (currentBatch ++ [requestEntry (newID index) batchEntry]) (by omega)
      ((swapped.map Prod.fst).nodup_iff.mpr distinct)
    refine ⟨filled, ?_, perm.trans swapped⟩
    simp only [fillBatch, if_neg inside, added, done]
    simp [identified]

/-- A failure whose followed pointers point to something. -/
def Readable (failedEntry : BatchResultErrorEntry) : Prop :=
  failedEntry.code ≠ none ∧ failedEntry.message ≠ none

variable {batchMap : List (String × SqsEntry)} {failed : List BatchResultErrorEntry}

/-- Failures that are processed have readable IDs. -/
theorem readable_of_processFailures {done : List (String × SqsEntry) × List ErrorResponseEntry}
    (processed : processFailuresFromSQSResponse batchMap failed = .ok done) :
    ∀ failedEntry ∈ failed, Readable failedEntry := by
  induction failed generalizing batchMap done with
  | nil => simp
  | cons failedEntry rest ih =>
    obtain ⟨id, -, processed⟩ := bind_eq_ok.mp processed
    obtain ⟨code, coded, processed⟩ := bind_eq_ok.mp processed
    obtain ⟨message, explained, processed⟩ := bind_eq_ok.mp processed
    rw [forall_mem_cons]
    constructor
    · -- A pointer that was followed is not nil.
      constructor
      · intro missing
        rw [missing] at coded
        cases coded
      · intro missing
        rw [missing] at explained
        cases explained
    · cases found : batchMap.lookup id with
      | none =>
        rw [found] at processed
        cases processed
      | some entry =>
        rw [found] at processed
        obtain ⟨others, later, -⟩ := bind_eq_ok.mp processed
        exact ih later

/-- Readable failures of different messages are taken out. -/
theorem processFailures_ok (distinct : Dict.Distinct batchMap)
    (once : (failed.map BatchResultErrorEntry.id).Nodup)
    (sent : ∀ failedEntry ∈ failed, ∃ keyed ∈ batchMap, failedEntry.id = some keyed.1)
    (readable : ∀ failedEntry ∈ failed, Readable failedEntry) : ∃ taken kept errEntries,
      processFailuresFromSQSResponse batchMap failed = .ok (kept, errEntries) ∧
      (taken ++ kept).Perm batchMap ∧
      errEntries.map ErrorResponseEntry.responseEntry = taken.map (fun keyed => keyed.2.response) ∧
      taken.map (fun keyed => some keyed.1) = failed.map BatchResultErrorEntry.id := by
  -- The other failures' messages are still there afterwards.
  induction failed generalizing batchMap with
  | nil => exact ⟨[], batchMap, [], rfl, List.Perm.refl _, rfl, rfl⟩
  | cons failedEntry rest ih =>
    obtain ⟨fresh, others⟩ := nodup_cons.mp once
    obtain ⟨here, later⟩ := forall_mem_cons.mp sent
    obtain ⟨now, then_readable⟩ := forall_mem_cons.mp readable
    obtain ⟨⟨id, entry⟩, member, named⟩ := here
    obtain ⟨code, coded⟩ := Option.ne_none_iff_exists'.mp now.1
    obtain ⟨message, explained⟩ := Option.ne_none_iff_exists'.mp now.2
    have found : batchMap.lookup id = some entry := Dict.lookup_of_mem distinct member
    have still : ∀ other ∈ rest, ∃ keyed ∈ Dict.delete id batchMap, other.id = some keyed.1 := by
      intro other listed
      obtain ⟨keyed, stored, same⟩ := later other listed
      refine ⟨keyed, mem_filter.mpr ⟨stored, ?_⟩, same⟩
      simp only [ne_eq, decide_eq_true_eq]
      intro equal
      apply fresh
      exact mem_map.mpr ⟨other, listed, by rw [same, equal, named]⟩
    obtain ⟨taken, kept, errEntries, processed, perm, coordinates, ids⟩ :=
      @ih (Dict.delete id batchMap) (distinct.delete id) others still then_readable
    refine ⟨(id, entry) :: taken, kept, ⟨entry.response, flushError failedEntry.senderFault⟩ ::
      errEntries, ?_, ?_, ?_, ?_⟩
    · simp [processFailuresFromSQSResponse, named, coded, explained, pointed, found, processed,
        Bind.bind, Except.bind, Pure.pure, Except.pure]
    · exact (perm.cons _).trans (Dict.perm_delete distinct found)
    · simp [coordinates]
    · simp [ids, named]

section Flush

variable {sendMessageBatch : SendMessageBatch} {newID : Nat → String}
  {visits : Dict.Visits String SqsEntry} {queueURL : String} {entries : List SqsEntry}

theorem flushBatch_unsent (small : entries.length ≤ maxBatchSizeInSQS)
    (distinct : Dict.Distinct (identified newID 0 entries)) {text : String}
    (answer : sendMessageBatch (batchInput newID queueURL entries) = .error text) :
    flushBatch sendMessageBatch newID visits queueURL entries =
      .ok ⟨[processFailureFromSend entries], some ("SendMessageBatch error: " ++ text)⟩ := by
  obtain ⟨filled, done, -⟩ :=
    @fillBatch_ok newID entries 0 [] [] (by omega) (by simpa using distinct)
  unfold batchInput at answer
  simp [flushBatch, done, answer, Bind.bind, Except.bind, Pure.pure, Except.pure]

theorem flushBatch_sent (small : entries.length ≤ maxBatchSizeInSQS)
    (distinct : Dict.Distinct (identified newID 0 entries)) {output : SendMessageBatchOutput}
    (answer : sendMessageBatch (batchInput newID queueURL entries) = .ok output) :
    ∃ filled, filled.Perm (identified newID 0 entries) ∧
      flushBatch sendMessageBatch newID visits queueURL entries =
        reportResponse visits filled output := by
  obtain ⟨filled, done, perm⟩ :=
    @fillBatch_ok newID entries 0 [] [] (by omega) (by simpa using distinct)
  unfold batchInput at answer
  refine ⟨filled, by simpa using perm, ?_⟩
  simp [flushBatch, done, answer, Bind.bind, Except.bind]

theorem reportResponse_eq {batchMap kept : List (String × SqsEntry)}
    {output : SendMessageBatchOutput} {errEntries : List ErrorResponseEntry}
    (processed : processFailuresFromSQSResponse batchMap output.failed = .ok (kept, errEntries)) :
    ∃ flushed, reportResponse visits batchMap output = .ok flushed ∧
      failedRows flushed.reports = errEntries.map ErrorResponseEntry.responseEntry ∧
      writtenRows flushed.reports = (visits.visit kept).map fun keyed => keyed.2.response := by
  -- Without a failure there is no report of failures.
  simp only [reportResponse, processed, Bind.bind, Except.bind, Pure.pure, Except.pure]
  refine ⟨_, rfl, ?_⟩
  cases named : output.failed with
  | nil =>
    rw [named] at processed
    cases processed
    simp [failedRows, writtenRows]
  | cons failedEntry rest => simp [failedRows, writtenRows]

theorem failedRows_unsent (newID : Nat → String) (index : Nat) (entries : List SqsEntry) :
    failedRows [processFailureFromSend entries] =
      (identified newID index entries).map fun keyed => keyed.2.response := by
  induction entries generalizing index with
  | nil => rfl
  | cons batchEntry rest ih =>
    rw [identified, map_cons, ← ih (index + 1)]
    simp [failedRows, processFailureFromSend]

/--
Each message of a batch gets one outcome exactly when SQS could not be reached, or gives a code and
a message with each of the messages that it has not taken.
-/
theorem flush_splits_batch_iff (small : entries.length ≤ maxBatchSizeInSQS)
    (fresh : ∀ i j, i < entries.length → j < entries.length → newID i = newID j → i = j)
    (known : ∀ output, sendMessageBatch (batchInput newID queueURL entries) = .ok output →
      (output.failed.map BatchResultErrorEntry.id).Nodup ∧
        ∀ failedEntry ∈ output.failed, ∃ keyed ∈ identified newID 0 entries,
          failedEntry.id = some keyed.1) :
    (∃ flushed failed kept,
      flushBatch sendMessageBatch newID visits queueURL entries = .ok flushed ∧
      Splits (identified newID 0 entries)
        (sendMessageBatch (batchInput newID queueURL entries)) flushed failed kept) ↔
      ∀ output, sendMessageBatch (batchInput newID queueURL entries) = .ok output →
        ∀ failedEntry ∈ output.failed, Readable failedEntry := by
  -- The failed messages are taken out of the map.
  have distinct : Dict.Distinct (identified newID 0 entries) :=
    (identified_distinct (by simpa using fresh)).1
  cases answer : sendMessageBatch (batchInput newID queueURL entries) with
  | error text =>
    constructor
    · intro _ output impossible
      cases impossible
    · -- All messages have failed, whatever they are.
      intro _
      refine ⟨_, identified newID 0 entries, [], flushBatch_unsent small distinct answer, ?_⟩
      refine ⟨by simp, by simpa using distinct, failedRows_unsent newID 0 entries, rfl, ?_⟩
      intro output impossible
      cases impossible
  | ok output =>
    obtain ⟨once, sent⟩ := known output answer
    obtain ⟨filled, perm, flushes⟩ := @flushBatch_sent sendMessageBatch newID visits queueURL
      entries small distinct output answer
    rw [flushes]
    constructor
    · rintro ⟨flushed, failed, kept, reported, -⟩ _ ⟨⟩
      obtain ⟨split, processed, -⟩ := bind_eq_ok.mp reported
      exact readable_of_processFailures processed
    · intro readable
      have unique : Dict.Distinct filled := (perm.map Prod.fst).nodup_iff.mpr distinct
      have stored : ∀ failedEntry ∈ output.failed,
          ∃ keyed ∈ filled, failedEntry.id = some keyed.1 := by
        intro failedEntry listed
        obtain ⟨keyed, member, named⟩ := sent failedEntry listed
        exact ⟨keyed, perm.mem_iff.mpr member, named⟩
      obtain ⟨taken, kept, errEntries, processed, parts, coordinates, ids⟩ :=
        processFailures_ok unique once stored (readable output rfl)
      obtain ⟨flushed, reported, errors, successes⟩ :=
        @reportResponse_eq visits filled kept output errEntries processed
      have all : (taken ++ visits.visit kept).Perm (identified newID 0 entries) :=
        ((visits.perm kept).append_left taken).trans (parts.trans perm)
      refine ⟨flushed, taken, visits.visit kept, reported, all, ?_, ?_, successes, ?_⟩
      · exact (all.map Prod.fst).nodup_iff.mpr distinct
      · rw [errors, coordinates]
      · rintro _ ⟨⟩
        exact ids

end Flush

namespace Sample

/-- A message that waits to be sent. -/
def queuedEntry (offset : Nat) : SqsEntry where
  queueURL := "https://queue"
  message := "\x7bid:1\x7d"
  lsn := 100
  xid := 7
  tableName := makeTableName "public" "users"
  pk := "1"
  offset := offset
  queueConfig := ⟨"public.users", "users", "https://queue", false, false, true, ""⟩
  deduplicationID := none
  groupID := none

def numbered (index : Nat) : String := if index = 0 then "a" else "b"

/-- A map that is visited in the order in which its pairs are kept. -/
def inOrder : Dict.Visits String SqsEntry where
  visit pairs := pairs
  perm _ := List.Perm.refl _

/-- SQS does not take the first of the messages, and explains it or not. -/
def refusing (message : Option String) : SendMessageBatch :=
  fun _ => .ok ⟨[⟨some "a", some "InternalError", message, false⟩]⟩

end Sample

open Sqs.Sample

/-- A batch with one explained failure is split in two. -/
theorem flush_splits_batch_iff_explained :
    ∃ flushed failed kept,
      flushBatch (refusing (some "try again")) numbered inOrder
        "https://queue" [queuedEntry 0, queuedEntry 1] = .ok flushed ∧
      Splits (identified numbered 0 [queuedEntry 0, queuedEntry 1])
        (refusing (some "try again") (batchInput numbered "https://queue"
          [queuedEntry 0, queuedEntry 1])) flushed failed kept := by
  refine (flush_splits_batch_iff (by decide) ?_ ?_).mpr ?_
  · intro i j below other same
    have first : i = 0 ∨ i = 1 := by simp at below; omega
    have second : j = 0 ∨ j = 1 := by simp at other; omega
    rcases first with rfl | rfl <;> rcases second with rfl | rfl <;>
      first | rfl | exact absurd same (by decide)
  · rintro _ ⟨⟩
    exact ⟨by decide, by simp [identified, numbered]⟩
  · rintro _ ⟨⟩
    simp [Readable]

/-- A failure without an explanation ends the process. -/
theorem flush_panics_on_missing_message :
    flushBatch (refusing none) numbered inOrder "https://queue"
        [queuedEntry 0, queuedEntry 1] =
      .error (.panic "nil pointer dereference") :=
  rfl

end PgWalk.Sqs
