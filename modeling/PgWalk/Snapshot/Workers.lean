import Mathlib.Algebra.Group.Int.Defs
import PgWalk.Lib.Tickets
import PgWalk.Listener.RowKeys
import PgWalk.Snapshot.Batches
import PgWalk.Snapshot.Progress
import PgWalk.Wal.Reading

/-! Snapshot workers, step by step: rows become batches, and batches get numbers. -/

namespace PgWalk

open List Option Function

/-- The keys of a snapshot's rows: the columns, and a saved commit time. -/
def snapshotKeyMap (columns : List String) (txOpts : TxCommitTimeOptions) : KeyMap :=
  ⟨columns ++ if txOpts.save && !columns.contains txOpts.name then [txOpts.name] else []⟩

/-- A number as the source converts it to 32 bits. -/
def uint32 (number : Int) : Nat := (number % 2 ^ 32).toNat

namespace Worker

variable {V : Type}

/-- A range of a table, with what the database answers to its query. -/
structure TableRangeTask (V : Type) where
  table : Table
  keyMap : Option KeyMap
  -- The names of the columns in the answer.
  fieldDescriptions : List String
  -- The values of each row, in the order of the columns.
  rows : List (List (Option V))

/-- What the workers of a snapshot are given. -/
structure Job (V : Type) where
  codec : ValueCodec V
  txOpts : TxCommitTimeOptions
  batchSize : Int
  -- How many workers there are.
  workers : Nat
  -- The tasks in the order in which they are put into the channel.
  tasks : List (TableRangeTask V)

variable (job : Job V) (task : TableRangeTask V)

/-- The keys of a task's rows. -/
def Job.rowKeyMap : KeyMap :=
  task.keyMap.getD (snapshotKeyMap task.fieldDescriptions job.txOpts)

/-- Check that every column of the answer is one of the keys. -/
def Job.checkFields : Except Fault Unit :=
  match task.fieldDescriptions.find? fun name => ((job.rowKeyMap task).getIndex name).isNone with
  | some name => throw (.error ("snapshot keymap for table " ++ task.table.fullName ++
      " is missing query column \"" ++ name ++ "\""))
  | none => return ()

/-- Store the values of a row under the names of their columns. -/
def fillRow (rowMap : OrderedMap V) : List String → List (Option V) → Except Fault (OrderedMap V)
  | [], _ => return rowMap
  | _ :: _, [] => throw (.panic "index out of range")
  | name :: names, value :: values => do
    let filled ← rowMap.setValue name value
    fillRow filled names values

/-- The entry of a row, with its number inside its batch. -/
def Job.entry (values : List (Option V)) (offset : Nat) : Except Fault (WriteEntry V) := do
  let rowMap ← fillRow (.new (job.rowKeyMap task)) task.fieldDescriptions values
  let primaryKey ← createPK job.codec task.table (some rowMap)
  return {
    tuple := .pointer (some rowMap)
    prevTuple := .absent
    pk := primaryKey
    kind := .snapshotRead
    table := task.table.name
    offset := offset }

/-- An entry with its table, its key, and each value under its column. -/
structure Job.Carries (values : List (Option V)) (entry : WriteEntry V) : Prop where
  kind : entry.kind = .snapshotRead
  table : entry.table = task.table.name
  previous : entry.prevTuple = .absent
  tuple : ∃ rowMap, entry.tuple = .pointer (some rowMap) ∧
    createPK job.codec task.table (some rowMap) = .ok entry.pk ∧
    (∀ name ∉ task.fieldDescriptions, rowMap.get name = none) ∧
    -- Of two columns with one name the later value is stored.
    ∀ i name, task.fieldDescriptions[i]? = some name → name ∉ task.fieldDescriptions.drop (i + 1) →
      ∃ value, values[i]? = some value ∧ rowMap.get name = some value

/-- The batch that a worker puts together. -/
structure Batch (V : Type) where
  -- The number of the task in the order of the channel.
  task : Nat
  -- The rows that have not been read.
  rest : List (List (Option V))
  entries : List (WriteEntry V)
  batchCount : Nat

/-- How far a worker is in sending a batch. -/
inductive SendPhase
  | nextLSN
  | onSnapshotBatch (lsn : Nat)
  | report (lsn : Nat)
  -- The loop around the greatest number: it is read, and then replaced if it is still the same.
  | load (lsn : Nat)
  | compareAndSwap (lsn current : Nat)

inductive Phase (V : Type)
  | receiving
  | reading (batch : Batch V)
  -- Whether the batch is the one left over after the last row.
  | sending (batch : Batch V) (last : Bool) (send : SendPhase)
  | taskDone (task : Nat)
  | finished

/-- A batch that was handed to the listener. -/
structure Submitted (V : Type) where
  task : Nat
  request : WriteRequest V

def Submitted.lsn (batch : Submitted V) : Nat := batch.request.lsn

structure Pool (V : Type) where
  lsnTracker : SnapshotLSNTracker
  -- How many tasks have been taken from the channel.
  received : Nat
  phase : Nat → Phase V
  submitted : List (Submitted V)
  reports : List ProgressReport

/-- The workers before anything has happened. -/
def start : Pool V := ⟨⟨0, 0⟩, 0, fun _ => .receiving, [], []⟩

def Pool.go (s : Pool V) (worker : Nat) (phase : Phase V) : Pool V :=
  { s with phase := Function.update s.phase worker phase }

/-- Where a worker goes on when a batch has been sent. -/
def Batch.sent (batch : Batch V) (last : Bool) : Phase V :=
  if last then .taskDone batch.task
  else .reading { batch with entries := [], batchCount := 0 }

/-- Add a row to a batch, and send the batch when that fills it. -/
def Job.readRow (batch : Batch V)
    (values : List (Option V)) (rest : List (List (Option V))) : Except Fault (Phase V) := do
  let entry ← job.entry task values batch.batchCount
  let grown : Batch V := { batch with
    rest := rest
    entries := batch.entries ++ [entry]
    batchCount := (batch.batchCount + 1) % 2 ^ 32 }
  return if grown.batchCount ≥ uint32 job.batchSize then .sending grown false .nextLSN
    else .reading grown

def sendStep (s : Pool V) (worker : Nat) (table : Table) (batch : Batch V) (last : Bool) :
    SendPhase → Pool V
  | .nextLSN =>
    let taken := s.lsnTracker.takeNextLSN
    { s.go worker (.sending batch last (.onSnapshotBatch taken.1)) with lsnTracker := taken.2 }
  | .onSnapshotBatch lsn =>
    { s.go worker (.sending batch last (.report lsn)) with
      submitted := s.submitted ++ [⟨batch.task, .newSnapshotRequest lsn batch.entries⟩] }
  | .report lsn =>
    { s.go worker (.sending batch last (.load lsn)) with
      reports := s.reports ++ [.maxLSN table.fullName lsn] }
  | .load lsn =>
    if lsn ≤ s.lsnTracker.maxSubmitted then s.go worker (batch.sent last)
    else s.go worker (.sending batch last (.compareAndSwap lsn s.lsnTracker.maxSubmitted))
  | .compareAndSwap lsn current =>
    if s.lsnTracker.maxSubmitted = current then
      { s.go worker (batch.sent last) with
        lsnTracker := { s.lsnTracker with maxSubmitted := lsn } }
    else s.go worker (.sending batch last (.load lsn))

/--
One step of a worker, not taken where the source would return an error or wait at an empty channel.
-/
def Job.step (s : Pool V) (worker : Nat) : Option (Pool V) :=
  if worker < job.workers then
    match s.phase worker with
    | .receiving =>
      match job.tasks[s.received]? with
      -- The channel is closed.
      | none => some (s.go worker .finished)
      | some task => (job.checkFields task).toOption.map fun _ =>
        { s.go worker (.reading ⟨s.received, task.rows, [], 0⟩) with received := s.received + 1 }
    | .reading batch =>
      match job.tasks[batch.task]?, batch.rest with
      | none, _ => none
      | some task, values :: rest =>
        (job.readRow task batch values rest).toOption.map (s.go worker)
      | some _, [] =>
        if batch.batchCount > 0 then some (s.go worker (.sending batch true .nextLSN))
        else some (s.go worker (.taskDone batch.task))
    | .sending batch last send =>
      (job.tasks[batch.task]?).map fun task => sendStep s worker task.table batch last send
    | .taskDone index =>
      (job.tasks[index]?).map fun task => { s.go worker .receiving with
        reports := s.reports ++ [.taskDone task.table.fullName] }
    | .finished => none
  else none

/-- Everything a step of a worker can do. -/
inductive Stepped (job : Job V) (s : Pool V) (worker : Nat) : Pool V → Prop
  | finish : s.phase worker = .receiving → job.tasks[s.received]? = none →
      Stepped job s worker (s.go worker .finished)
  | receive (task : TableRangeTask V) : s.phase worker = .receiving →
      job.tasks[s.received]? = some task →
      Stepped job s worker
        { s.go worker (.reading ⟨s.received, task.rows, [], 0⟩) with received := s.received + 1 }
  | read (batch : Batch V) (task : TableRangeTask V) (values : List (Option V))
      (rest : List (List (Option V))) (phase : Phase V) : s.phase worker = .reading batch →
      job.tasks[batch.task]? = some task → batch.rest = values :: rest →
      job.readRow task batch values rest = .ok phase → Stepped job s worker (s.go worker phase)
  | leftOver (batch : Batch V) : s.phase worker = .reading batch → batch.rest = [] →
      0 < batch.batchCount → Stepped job s worker (s.go worker (.sending batch true .nextLSN))
  | ended (batch : Batch V) : s.phase worker = .reading batch → batch.rest = [] →
      batch.batchCount = 0 → Stepped job s worker (s.go worker (.taskDone batch.task))
  | number (batch : Batch V) (last : Bool) : s.phase worker = .sending batch last .nextLSN →
      Stepped job s worker
        { s.go worker (.sending batch last (.onSnapshotBatch (s.lsnTracker.nextLSN + 1))) with
          lsnTracker := { s.lsnTracker with nextLSN := s.lsnTracker.nextLSN + 1 } }
  | submit (batch : Batch V) (last : Bool) (lsn : Nat) :
      s.phase worker = .sending batch last (.onSnapshotBatch lsn) →
      Stepped job s worker { s.go worker (.sending batch last (.report lsn)) with
        submitted := s.submitted ++ [⟨batch.task, .newSnapshotRequest lsn batch.entries⟩] }
  | report (batch : Batch V) (last : Bool) (lsn : Nat) (reports : List ProgressReport) :
      s.phase worker = .sending batch last (.report lsn) →
      Stepped job s worker
        { s.go worker (.sending batch last (.load lsn)) with reports := reports }
  | known (batch : Batch V) (last : Bool) (lsn : Nat) :
      s.phase worker = .sending batch last (.load lsn) → lsn ≤ s.lsnTracker.maxSubmitted →
      Stepped job s worker (s.go worker (batch.sent last))
  | loaded (batch : Batch V) (last : Bool) (lsn : Nat) :
      s.phase worker = .sending batch last (.load lsn) → s.lsnTracker.maxSubmitted < lsn →
      Stepped job s worker
        (s.go worker (.sending batch last (.compareAndSwap lsn s.lsnTracker.maxSubmitted)))
  | swapped (batch : Batch V) (last : Bool) (lsn current : Nat) :
      s.phase worker = .sending batch last (.compareAndSwap lsn current) →
      s.lsnTracker.maxSubmitted = current →
      Stepped job s worker { s.go worker (batch.sent last) with
        lsnTracker := { s.lsnTracker with maxSubmitted := lsn } }
  -- Another worker has changed the greatest number in between.
  | lost (batch : Batch V) (last : Bool) (lsn current : Nat) :
      s.phase worker = .sending batch last (.compareAndSwap lsn current) →
      s.lsnTracker.maxSubmitted ≠ current →
      Stepped job s worker (s.go worker (.sending batch last (.load lsn)))
  | done (index : Nat) (reports : List ProgressReport) : s.phase worker = .taskDone index →
      Stepped job s worker { s.go worker .receiving with reports := reports }

variable {job : Job V} {next s : Pool V} {worker : Nat} {batch : Batch V} {task : TableRangeTask V}
  {values : List (Option V)} {entry : WriteEntry V}

/-- Sending goes through its phases in order. -/
theorem sendStep_stepped {last : Bool} {send : SendPhase} (table : Table)
    (phase : s.phase worker = .sending batch last send) :
    Stepped job s worker (sendStep s worker table batch last send) := by
  cases send with
  | nextLSN => exact .number batch last phase
  | onSnapshotBatch lsn => exact .submit batch last lsn phase
  | report lsn => exact .report batch last lsn _ phase
  | load lsn =>
    simp only [sendStep]
    by_cases low : lsn ≤ s.lsnTracker.maxSubmitted
    · rw [if_pos low]
      exact .known batch last lsn phase low
    · rw [if_neg low]
      exact .loaded batch last lsn phase (Nat.not_le.mp low)
  | compareAndSwap lsn current =>
    simp only [sendStep]
    by_cases same : s.lsnTracker.maxSubmitted = current
    · rw [if_pos same]
      exact .swapped batch last lsn current phase same
    · rw [if_neg same]
      exact .lost batch last lsn current phase same

/-- Every step is one of those listed. -/
theorem Job.stepped (taken : job.step s worker = some next) :
    worker < job.workers ∧ Stepped job s worker next := by
  -- A worker's phase decides which step it takes.
  unfold Job.step at taken
  by_cases inside : worker < job.workers
  · rw [if_pos inside] at taken
    refine ⟨inside, ?_⟩
    cases phase : s.phase worker with
    | receiving =>
      simp only [phase] at taken
      cases found : job.tasks[s.received]? with
      | none =>
        simp only [found, some.injEq] at taken
        exact taken ▸ .finish phase found
      | some task =>
        simp only [found] at taken
        obtain ⟨-, -, rfl⟩ := map_eq_some_iff.mp taken
        exact .receive task phase found
    | reading batch =>
      simp only [phase] at taken
      cases found : job.tasks[batch.task]? with
      | none => simp [found] at taken
      | some task =>
        cases rest : batch.rest with
        | cons values rest' =>
          simp only [found, rest] at taken
          obtain ⟨after, read, rfl⟩ := map_eq_some_iff.mp taken
          exact .read batch task values rest' after phase found rest (toOption_eq_some.mp read)
        | nil =>
          simp only [found, rest] at taken
          by_cases some : batch.batchCount > 0
          · rw [if_pos some] at taken
            exact Option.some.inj taken ▸ .leftOver batch phase rest some
          · rw [if_neg some] at taken
            exact Option.some.inj taken ▸ .ended batch phase rest (Nat.eq_zero_of_not_pos some)
    | sending batch last send =>
      simp only [phase] at taken
      obtain ⟨task, -, rfl⟩ := map_eq_some_iff.mp taken
      exact sendStep_stepped task.table phase
    | taskDone index =>
      simp only [phase] at taken
      obtain ⟨task, -, rfl⟩ := map_eq_some_iff.mp taken
      exact .done index _ phase
    | finished => simp [phase] at taken
  · rw [if_neg inside] at taken
    cases taken

/-- The entries of a batch are counted, and numbered from zero. -/
structure Batch.Numbered (batch : Batch V) : Prop where
  count : batch.batchCount = batch.entries.length
  offsets : batch.entries.map WriteEntry.offset = List.range batch.entries.length

/-- A swap is only tried with a number greater than the one read. -/
def SendPhase.Ahead : SendPhase → Prop
  | .compareAndSwap lsn current => current < lsn
  | _ => True

/-- What is known of a worker from its own steps. -/
def Phase.Sound (batchSize : Nat) : Phase V → Prop
  | .reading batch => batch.Numbered ∧ batch.entries.length < batchSize
  | .sending batch last send => batch.Numbered ∧ 0 < batch.entries.length ∧
      batch.entries.length ≤ batchSize ∧ (last = true → batch.rest = []) ∧ send.Ahead
  | _ => True

/-- A batch as the listener should get it. -/
structure Submitted.Usable (batchSize : Nat) (batch : Submitted V) : Prop where
  nonempty : batch.request.entries ≠ []
  bounded : batch.request.entries.length ≤ batchSize
  offsets : batch.request.entries.map WriteEntry.offset = List.range batch.request.entries.length

/-- What workers know of themselves and of their batches. -/
structure Pool.Sound (batchSize : Nat) (s : Pool V) : Prop where
  phases : ∀ worker, (s.phase worker).Sound batchSize
  submitted : ∀ batch ∈ s.submitted, batch.Usable batchSize

/-- A filled row has each value under its name, and others as before. -/
theorem fillRow_get {rowMap last : OrderedMap V} {names : List String} (sized : rowMap.WellSized)
    (filled : fillRow rowMap names values = .ok last) :
    (∀ name ∉ names, last.get name = rowMap.get name) ∧
      ∀ i name, names[i]? = some name → name ∉ names.drop (i + 1) →
        ∃ value, values[i]? = some value ∧ last.get name = some value := by
  -- Each value is stored and left alone by the rest of the loop.
  induction names generalizing rowMap values with
  | nil =>
    cases filled
    simp
  | cons first names ih =>
    cases values with
    | nil => cases filled
    | cons value values =>
      obtain ⟨next, stored, filled⟩ := bind_eq_ok.mp filled
      obtain ⟨index, found, -⟩ := OrderedMap.setValue_eq_ok stored
      obtain ⟨next', stored', -, nextSized, get⟩ := OrderedMap.setValue_ok sized
        ((rowMap.keyMap.getIndex_isSome_iff first).mp (found ▸ rfl)) value
      cases stored.symm.trans stored'
      obtain ⟨others, own⟩ := ih nextSized filled
      refine ⟨fun name absent => ?_, fun i name named later => ?_⟩
      · rw [mem_cons, not_or] at absent
        rw [others name absent.2, get, if_neg (Ne.symm absent.1)]
      · cases i with
        | zero =>
          cases named
          exact ⟨value, rfl, by rw [others first later, get, if_pos rfl]⟩
        | succ i => exact own i name named later

/-- The entry that is made of a row carries it, with the number it was given. -/
theorem Job.entry_carries {offset : Nat} (made : job.entry task values offset = .ok entry) :
    entry.offset = offset ∧ job.Carries task values entry := by
  obtain ⟨rowMap, filled, made⟩ := bind_eq_ok.mp made
  obtain ⟨primaryKey, named, made⟩ := bind_eq_ok.mp made
  cases made
  obtain ⟨others, own⟩ := fillRow_get (OrderedMap.wellSized_new _) filled
  refine ⟨rfl, rfl, rfl, rfl, rowMap, rfl, named, fun name absent => ?_, own⟩
  rw [others name absent, OrderedMap.get_new]

def Batch.grown (batch : Batch V) (entry : WriteEntry V) (rest : List (List (Option V))) :
    Batch V :=
  { batch with
    rest := rest
    entries := batch.entries ++ [entry]
    batchCount := batch.batchCount + 1 }

theorem Batch.Numbered.grown (numbered : batch.Numbered)
    (offset : entry.offset = batch.batchCount) (rest : List (List (Option V))) :
    (batch.grown entry rest).Numbered where
  count := by simp [Batch.grown, numbered.count]
  offsets := by simp [Batch.grown, numbered.offsets, offset, numbered.count, range_succ]

section BatchSize

variable {job : Job V} (positive : 1 ≤ job.batchSize) (small : job.batchSize < 2 ^ 32)

include positive small

/-- A batch's count stays within 32 bits, as the size bounds it. -/
theorem Job.readRow_eq_ok {task : TableRangeTask V} {batch : Batch V} {values : List (Option V)}
    {rest : List (List (Option V))} {phase : Phase V}
    (sound : (Phase.reading batch).Sound job.batchSize.toNat)
    (read : job.readRow task batch values rest = .ok phase) :
    ∃ entry, job.entry task values batch.batchCount = .ok entry ∧ phase.Sound job.batchSize.toNat ∧
      (phase = .sending (batch.grown entry rest) false .nextLSN ∨
        phase = .reading (batch.grown entry rest)) := by
  -- The count stays below the batch size, which fits 32 bits.
  obtain ⟨numbered, below⟩ := sound
  obtain ⟨entry, made, read⟩ := bind_eq_ok.mp read
  have numbered := numbered.grown (job.entry_carries made).1 rest
  have same : uint32 job.batchSize = job.batchSize.toNat := by
    unfold uint32
    omega
  have whole : (batch.batchCount + 1) % 2 ^ 32 = batch.batchCount + 1 := by
    have count := numbered.count
    simp only [Batch.grown, length_append, length_singleton] at count
    omega
  have length : (batch.grown entry rest).entries.length = batch.batchCount + 1 :=
    numbered.count.symm
  dsimp only at read
  rw [whole, same] at read
  refine ⟨entry, made, ?_⟩
  by_cases full : batch.batchCount + 1 ≥ job.batchSize.toNat
  · rw [if_pos full] at read
    cases read
    refine ⟨⟨numbered, ?_, ?_, (absurd · Bool.false_ne_true), trivial⟩, .inl rfl⟩
    · show 0 < (batch.grown entry rest).entries.length
      omega
    · have before : (batch.grown entry rest).entries.length = batch.entries.length + 1 := by
        simp [Batch.grown]
      show (batch.grown entry rest).entries.length ≤ job.batchSize.toNat
      omega
  · rw [if_neg full] at read
    cases read
    refine ⟨⟨numbered, ?_⟩, .inr rfl⟩
    show (batch.grown entry rest).entries.length < job.batchSize.toNat
    omega

omit small in
theorem Batch.sound_sent (batch : Batch V) (last : Bool) :
    (batch.sent last).Sound job.batchSize.toNat := by
  unfold Batch.sent
  split
  · trivial
  · exact ⟨⟨rfl, rfl⟩, by simp only [length_nil]; omega⟩

/-- Every step keeps the batches within bounds. -/
theorem Pool.Sound.step {s next : Pool V} {worker : Nat} (sound : s.Sound job.batchSize.toNat)
    (stepped : Stepped job s worker next) : next.Sound job.batchSize.toNat := by
  -- Only the phase of the worker that takes the step changes.
  have go : ∀ {phase : Phase V}, phase.Sound job.batchSize.toNat →
      ∀ other, ((s.go worker phase).phase other).Sound job.batchSize.toNat := by
    intro phase now other
    by_cases same : other = worker
    · simpa [Pool.go, same] using now
    · simpa [Pool.go, same] using sound.phases other
  -- A worker that goes on sending has the same batch as before.
  have still : ∀ {batch : Batch V} {last : Bool} {send later : SendPhase},
      s.phase worker = .sending batch last send →
      later.Ahead → (Phase.sending batch last later).Sound job.batchSize.toNat := by
    intro batch last send later at_ ahead
    have now := sound.phases worker
    rw [at_] at now
    obtain ⟨numbered, some, below, rest, -⟩ := now
    exact ⟨numbered, some, below, rest, ahead⟩
  cases stepped with
  | finish | ended | done => exact ⟨go trivial, sound.submitted⟩
  | receive task =>
    have empty : (Phase.reading ⟨s.received, task.rows, [], 0⟩).Sound job.batchSize.toNat :=
      ⟨⟨rfl, rfl⟩, by simp only [length_nil]; omega⟩
    exact ⟨go empty, sound.submitted⟩
  | read batch task values rest phase at_ _ _ read =>
    obtain ⟨-, -, now, -⟩ := job.readRow_eq_ok positive small (at_ ▸ sound.phases worker) read
    exact ⟨go now, sound.submitted⟩
  | leftOver batch at_ rest some =>
    -- A batch that the end of the rows cuts short still holds a row.
    have now := sound.phases worker
    rw [at_] at now
    obtain ⟨numbered, below⟩ := now
    rw [numbered.count] at some
    exact ⟨go ⟨numbered, some, below.le, fun _ => rest, trivial⟩,
      sound.submitted⟩
  | number batch last at_ | report batch last lsn reports at_ | lost batch last lsn current at_ =>
    exact ⟨go (still at_ trivial), sound.submitted⟩
  | submit batch last lsn at_ =>
    refine ⟨go (still at_ trivial), ?_⟩
    have now := sound.phases worker
    rw [at_] at now
    obtain ⟨numbered, some, below, -, -⟩ := now
    intro other member
    rcases mem_append.mp member with before | new
    · exact sound.submitted other before
    · -- The new batch is the one that the worker has collected.
      obtain rfl := mem_singleton.mp new
      exact ⟨ne_nil_of_length_pos some, below, numbered.offsets⟩
  | known batch last
  | swapped batch last => exact ⟨go (batch.sound_sent positive last), sound.submitted⟩
  | loaded batch last lsn at_ low =>
    exact ⟨go (still at_ low), sound.submitted⟩

end BatchSize

/-- The number that a worker has taken for a batch and not submitted. -/
def Phase.held : Phase V → Option Nat
  | .sending _ _ (.onSnapshotBatch lsn) => some lsn
  | _ => none

/-- The number of a batch that a worker has submitted and not marked. -/
def Phase.unmarked : Phase V → Option Nat
  | .sending _ _ (.report lsn) => some lsn
  | .sending _ _ (.load lsn) => some lsn
  | .sending _ _ (.compareAndSwap lsn _) => some lsn
  | _ => none

/-- The numbers of the batches, wherever they are. -/
def Pool.desk (s : Pool V) : Tickets.Desk where
  last := s.lsnTracker.nextLSN
  greatest := s.lsnTracker.maxSubmitted
  used := s.submitted.map Submitted.lsn
  held worker := (s.phase worker).held
  unmarked worker := (s.phase worker).unmarked

theorem Batch.numberless_sent (batch : Batch V) (last : Bool) :
    (batch.sent last).held = none ∧ (batch.sent last).unmarked = none := by
  unfold Batch.sent
  split
  · exact ⟨rfl, rfl⟩
  · exact ⟨rfl, rfl⟩

theorem Job.readRow_numberless {rest : List (List (Option V))} {phase : Phase V}
    (read : job.readRow task batch values rest = .ok phase) :
    phase.held = none ∧ phase.unmarked = none := by
  obtain ⟨entry, -, read⟩ := bind_eq_ok.mp read
  obtain rfl := Except.ok.inj read
  split
  · exact ⟨rfl, rfl⟩
  · exact ⟨rfl, rfl⟩

theorem Pool.desk_go (s : Pool V) (worker : Nat) (phase : Phase V) :
    (s.go worker phase).desk = { s.desk with
      held := Function.update s.desk.held worker phase.held
      unmarked := Function.update s.desk.unmarked worker phase.unmarked } := by
  have held : (s.go worker phase).desk.held = Function.update s.desk.held worker phase.held := by
    funext other
    exact apply_update (fun _ phase => Phase.held phase) s.phase worker phase other
  have unmarked : (s.go worker phase).desk.unmarked =
      Function.update s.desk.unmarked worker phase.unmarked := by
    funext other
    exact apply_update (fun _ phase => Phase.unmarked phase) s.phase worker phase other
  rw [← held, ← unmarked]
  rfl

theorem Pool.desk_kept {before : Phase V} (at_ : s.phase worker = before) :
    Function.update s.desk.held worker before.held = s.desk.held ∧
      Function.update s.desk.unmarked worker before.unmarked = s.desk.unmarked := by
  subst at_
  exact ⟨update_eq_self worker s.desk.held, update_eq_self worker s.desk.unmarked⟩

theorem Pool.desk_same {s : Pool V} {worker : Nat} {before phase : Phase V}
    (at_ : s.phase worker = before) (held : phase.held = before.held)
    (unmarked : phase.unmarked = before.unmarked) : (s.go worker phase).desk = s.desk := by
  obtain ⟨keptHeld, keptUnmarked⟩ := Pool.desk_kept at_
  rw [desk_go, held, unmarked, keptHeld, keptUnmarked]

theorem Pool.desk_mark {s : Pool V} {worker lsn : Nat} {batch : Batch V} {last : Bool}
    {before : Phase V} (at_ : s.phase worker = before) (held : before.held = none)
    (unmarked : before.unmarked = some lsn) :
    Tickets.Move s.desk { (s.go worker (batch.sent last)).desk with
      greatest := max s.lsnTracker.maxSubmitted lsn } := by
  obtain ⟨noneHeld, noneUnmarked⟩ := batch.numberless_sent last
  obtain ⟨kept, -⟩ := Pool.desk_kept at_
  rw [held] at kept
  rw [desk_go, noneHeld, noneUnmarked, kept]
  exact .mark s.desk worker lsn ((congrArg Phase.unmarked at_).trans unmarked)

/-- A worker's step makes at most one move with the numbers. -/
theorem Stepped.desk {batchSize : Nat} (sound : (s.phase worker).Sound batchSize)
    (stepped : Stepped job s worker next) : next.desk = s.desk ∨ Tickets.Move s.desk next.desk := by
  -- The counter's addition is atomic, so a number is handed out once.
  cases stepped with
  | finish at_ | leftOver batch at_ | ended batch at_
  | loaded batch last lsn at_
  | lost batch last lsn current at_ => exact .inl (Pool.desk_same at_ rfl rfl)
  | receive task at_ =>
    exact .inl (@Pool.desk_same _ _ _ _ (.reading ⟨s.received, task.rows, [], 0⟩) at_ rfl rfl)
  | read batch task values rest phase at_ _ _ read =>
    obtain ⟨held, unmarked⟩ := job.readRow_numberless read
    exact .inl (Pool.desk_same at_ held unmarked)
  | number batch last at_ =>
    obtain ⟨-, kept⟩ := Pool.desk_kept at_
    have taken := Tickets.Move.take s.desk worker (congrArg Phase.held at_)
    rw [← kept] at taken
    have moved := s.desk_go worker (.sending batch last (.onSnapshotBatch (s.desk.last + 1)))
    show _ ∨ Tickets.Move s.desk { (s.go worker (.sending batch last
      (.onSnapshotBatch (s.desk.last + 1)))).desk with last := s.desk.last + 1 }
    rw [moved]
    exact .inr taken
  | submit batch last lsn at_ =>
    -- The number goes from the worker's hand to the batch.
    have used := Tickets.Move.use s.desk worker lsn (congrArg Phase.held at_)
      (congrArg Phase.unmarked at_)
    have listed : List.map Submitted.lsn
        (s.submitted ++ [⟨batch.task, .newSnapshotRequest lsn batch.entries⟩]) =
          s.desk.used ++ [lsn] := map_append
    have moved := s.desk_go worker (.sending batch last (.report lsn))
    show _ ∨ Tickets.Move s.desk { (s.go worker (.sending batch last (.report lsn))).desk with
      used := List.map Submitted.lsn
        (s.submitted ++ [⟨batch.task, .newSnapshotRequest lsn batch.entries⟩]) }
    rw [listed, moved]
    exact .inr used
  | report batch last lsn reports at_ =>
    exact .inl (@Pool.desk_same _ _ _ _ (.sending batch last (.load lsn)) at_ rfl rfl)
  | known batch last lsn at_ low =>
    -- The greatest number is no less already.
    have marked := @Pool.desk_mark _ _ _ _ batch last _ at_ rfl rfl
    rw [Nat.max_eq_left low] at marked
    exact .inr marked
  | swapped batch last lsn current at_ same =>
    -- The greatest number is still the one that was read, which is less.
    rw [at_] at sound
    have ahead : current < lsn := sound.2.2.2.2
    have marked := @Pool.desk_mark _ _ _ _ batch last _ at_ rfl rfl
    rw [same, Nat.max_eq_right ahead.le] at marked
    exact .inr marked
  | done index reports at_ =>
    exact .inl (@Pool.desk_same _ _ _ _ .receiving at_ rfl rfl)

end Worker

end PgWalk
