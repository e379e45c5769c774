import PgWalk.Redis.FlushBatch
import PgWalk.Redis.PrevTuple

/-! What a row puts on the pipeline of its batch, and what of it is executed. -/

namespace PgWalk.Redis

open RedisDynamicWriter List RedisDynamicWriter

variable {V F : Type}

/-- A pipeline: the commands queued on it, and those it has sent. -/
structure Pipeliner (F : Type) where
  queued : List (ArgArray F)
  executed : List (ArgArray F)

namespace Pipeliner

/-- A pipeline as the client hands it out. -/
def new : Pipeliner F := ⟨[], []⟩

variable (pp : Pipeliner F)

def queue (commands : List (ArgArray F)) : Pipeliner F :=
  { pp with queued := pp.queued ++ commands }

/-- A pipeline after everything that was queued on it has been sent. -/
def sent : Pipeliner F := ⟨[], pp.executed ++ pp.queued⟩

@[simp] theorem queue_nil : pp.queue [] = pp := by
  simp [queue]

@[simp] theorem queue_queue (first second : List (ArgArray F)) :
    (pp.queue first).queue second = pp.queue (first ++ second) := by
  simp [queue]

end Pipeliner

open Pipeliner

/-- A call with a pipeline, which keeps what is queued before it fails. -/
abbrev PipelineM (F : Type) := ExceptT Fault (StateM (Pipeliner F))

/-- How a call ends with a given pipeline, and what it leaves on it. -/
def PipelineM.on {α : Type} (call : PipelineM F α) (pp : Pipeliner F) :
    Except Fault α × Pipeliner F :=
  (ExceptT.run call).run pp

/-- Queue one command; only one without arguments fails. -/
def ppDo (args : ArgArray F) : PipelineM F Unit := modify fun pp => pp.queue [args]

namespace RedisDynamicWriter

def enqueueCommand (cmdConfig : RedisCommand F) : PipelineM F Unit := ppDo cmdConfig.args

/-- Queue several commands of a row as a transaction. -/
def enqueueTransaction (commands : List (RedisCommand F)) : PipelineM F Unit := do
  ppDo (frame "MULTI")
  commands.forM enqueueCommand
  ppDo (frame "EXEC")

/-- Write a row to a pipeline: build all its commands, then queue them. -/
def writeTo (w : RedisDynamicWriter) (lib : RedisLib V F) (entry : WriteEntry V)
    (commitTime xid : Nat) : PipelineM F Unit :=
  match w.getCommands (.ofKind entry.kind) with
  | [] => throw (.fatal "no commands configured")
  | commands => do
    let built ← MonadExcept.ofExcept (w.buildGroups lib entry commitTime xid entry.tuple commands)
    match built.2 with
    | [] => return
    -- A single command needs no transaction.
    | [cmd] => enqueueCommand cmd
    | cmds => enqueueTransaction cmds

end RedisDynamicWriter

/--
Write the rows of a batch to a pipeline, up to the first that cannot be written, and return what
each of them has queued.
-/
def writeRows (writersMap : WritersMap) (lib : RedisLib V F) :
    List (RedisBatchEntry V) → PipelineM F (List (List (ArgArray F)))
  | [] => return []
  | entry :: rest =>
    match writersMap entry.walEntry.table.fullName with
    | none => throw (.fatal "cannot find writer for table")
    | some ppWriter => do
      let before ← get
      ppWriter.writeTo lib entry.walEntry entry.commitTime entry.xid
      let after ← get
      let others ← writeRows writersMap lib rest
      return after.queued.drop before.queued.length :: others

/-- Flush a batch; return what is reported and the pipeline used. -/
def flushOn (writersMap : WritersMap) (lib : RedisLib V F) (results : CommandResults)
    (entries : List (RedisBatchEntry V)) : Except Fault FlushReport × Pipeliner F :=
  match (writeRows writersMap lib entries).on .new with
  -- The pipeline is dropped with whatever is queued on it.
  | (.error (.error text), pp) => (.ok (notifyError entries (.other text)), pp)
  | (.error fault, pp) => (.error fault, pp)
  | (.ok queued, pp) =>
    match exec results queued with
    | some err => (.ok (notifyError entries err), pp.sent)
    | none => (.ok (.onSuccess ⟨entries.map RedisBatchEntry.response⟩), pp.sent)

section Calls

variable {α β : Type} {first : PipelineM F α} {pp mid : Pipeliner F}

theorem on_bind_ok {value : α} (returned : first.on pp = (.ok value, mid))
    (next : α → PipelineM F β) : (first >>= next).on pp = (next value).on mid := by
  have run : first pp = (.ok value, mid) := returned
  show ExceptT.bindCont next (first pp).1 (first pp).2 = _
  rw [run]
  rfl

theorem on_bind_error {fault : Fault} (failed : first.on pp = (.error fault, mid))
    (next : α → PipelineM F β) : (first >>= next).on pp = (.error fault, mid) := by
  have run : first pp = (.error fault, mid) := failed
  show ExceptT.bindCont next (first pp).1 (first pp).2 = _
  rw [run]
  rfl

end Calls

namespace RedisDynamicWriter

theorem enqueueCommand_on (cmd : RedisCommand F) (pp : Pipeliner F) :
    (enqueueCommand cmd).on pp = (.ok (), pp.queue [cmd.args]) := rfl

theorem forM_enqueueCommand_on (cmds : List (RedisCommand F)) (pp : Pipeliner F) :
    (cmds.forM enqueueCommand).on pp = (.ok (), pp.queue (cmds.map RedisCommand.args)) := by
  induction cmds generalizing pp with
  | nil =>
    rw [map_nil, queue_nil]
    rfl
  | cons cmd rest ih =>
    show (enqueueCommand cmd >>= fun _ => rest.forM enqueueCommand).on pp = _
    rw [on_bind_ok (enqueueCommand_on cmd pp), ih, queue_queue]
    rfl

theorem enqueueTransaction_on (cmds : List (RedisCommand F)) (pp : Pipeliner F) :
    (enqueueTransaction cmds).on pp =
      (.ok (), pp.queue (frame "MULTI" :: cmds.map RedisCommand.args ++ [frame "EXEC"])) := by
  have opened : (ppDo (frame "MULTI")).on pp = (.ok (), pp.queue [frame "MULTI"]) := rfl
  unfold enqueueTransaction
  rw [on_bind_ok opened, on_bind_ok (forM_enqueueCommand_on cmds _), queue_queue]
  show (Except.ok (), queue (pp.queue _) [frame "EXEC"]) = _
  rw [queue_queue]
  rfl

variable {w : RedisDynamicWriter} {lib : RedisLib V F} {entry : WriteEntry V}
  {commitTime xid : Nat}

/-- What is queued of a row that can be written is what the writer returns. -/
theorem writeTo_ok {tuple : EntryTuple V} {commands : List (ArgArray F)}
    (written : w.write lib entry commitTime xid = .ok (tuple, commands)) (pp : Pipeliner F) :
    (w.writeTo lib entry commitTime xid).on pp = (.ok (), pp.queue commands) := by
  -- The commands are built, and then queued by how many there are.
  unfold write at written
  unfold writeTo
  generalize w.getCommands (.ofKind entry.kind) = groups at written ⊢
  cases groups with
  | nil => cases written
  | cons group rest =>
    obtain ⟨⟨after, cmds⟩, built, same⟩ := bind_eq_ok.mp written
    cases same
    have returned : (MonadExcept.ofExcept (w.buildGroups lib entry commitTime xid entry.tuple
        (group :: rest)) : PipelineM F _).on pp = (.ok (tuple, cmds), pp) := by
      rw [built]
      rfl
    rw [on_bind_ok returned]
    rcases cmds with _ | ⟨first, _ | ⟨second, others⟩⟩
    · rw [enqueued, queue_nil]
      rfl
    · exact enqueueCommand_on first pp
    · exact enqueueTransaction_on (first :: second :: others) pp

/-- A row that cannot be built queues nothing. -/
theorem writeTo_error {fault : Fault} (failed : w.write lib entry commitTime xid = .error fault)
    (pp : Pipeliner F) : (w.writeTo lib entry commitTime xid).on pp = (.error fault, pp) := by
  unfold write at failed
  unfold writeTo
  generalize w.getCommands (.ofKind entry.kind) = groups at failed ⊢
  cases groups with
  | nil =>
    cases failed
    rfl
  | cons group rest =>
    cases built : w.buildGroups lib entry commitTime xid entry.tuple (group :: rest) with
    | error other =>
      have same : fault = other := by
        simp only [built, bind, Except.bind, Except.error.injEq] at failed
        exact failed.symm
      have stopped : (MonadExcept.ofExcept (w.buildGroups lib entry commitTime xid entry.tuple
          (group :: rest)) : PipelineM F _).on pp = (.error fault, pp) := by
        rw [built, same]
        rfl
      exact on_bind_error stopped _
    | ok result => simp [built, bind, Except.bind, pure, Except.pure] at failed

end RedisDynamicWriter

section Batch

variable {writersMap : WritersMap} {lib : RedisLib V F}

variable {entries : List (RedisBatchEntry V)}

/-- A batch all of whose rows can be written is queued row by row. -/
theorem writeRows_ok {rows : List (List (ArgArray F))}
    (queued : enqueueBatch writersMap lib entries = .ok rows) (pp : Pipeliner F) :
    (writeRows writersMap lib entries).on pp = (.ok rows, pp.queue rows.flatten) := by
  -- What the row has queued is what is new on the pipeline.
  induction entries generalizing rows pp with
  | nil =>
    cases queued
    rw [flatten_nil, queue_nil]
    rfl
  | cons entry rest ih =>
    unfold enqueueBatch at queued
    unfold writeRows
    cases found : writersMap entry.walEntry.table.fullName with
    | none => simp [found] at queued
    | some ppWriter =>
      simp only [found] at queued ⊢
      obtain ⟨⟨tuple, commands⟩, written, later⟩ := bind_eq_ok.mp queued
      obtain ⟨others, queuedRest, same⟩ := bind_eq_ok.mp later
      cases same
      have read : ∀ pp : Pipeliner F, (get : PipelineM F _).on pp = (.ok pp, pp) := fun _ => rfl
      rw [on_bind_ok (read pp), on_bind_ok (writeTo_ok written pp),
        on_bind_ok (read _), on_bind_ok (ih queuedRest _), queue_queue]
      have own : (pp.queue commands).queued.drop pp.queued.length = commands := drop_left
      rw [own]
      rfl

/-- A row that cannot be written leaves what was queued before it. -/
theorem writeRows_error {fault : Fault}
    (failed : enqueueBatch writersMap lib entries = .error fault) (pp : Pipeliner F) :
    ∃ before, (writeRows writersMap lib entries).on pp = (.error fault, pp.queue before) := by
  -- The row itself is queued, so a later one cannot be written.
  induction entries generalizing pp with
  | nil => cases failed
  | cons entry rest ih =>
    unfold enqueueBatch at failed
    unfold writeRows
    have read : ∀ pp : Pipeliner F, (get : PipelineM F _).on pp = (.ok pp, pp) := fun _ => rfl
    cases found : writersMap entry.walEntry.table.fullName with
    | none =>
      simp only [found, Except.error.injEq] at failed
      subst failed
      exact ⟨[], by rw [queue_nil]; rfl⟩
    | some ppWriter =>
      simp only [found] at failed ⊢
      rw [on_bind_ok (read pp)]
      cases written : ppWriter.write lib entry.walEntry entry.commitTime entry.xid with
      | error other =>
        simp only [written, bind, Except.bind, Except.error.injEq] at failed
        subst failed
        have stopped := writeTo_error written pp
        exact ⟨[], by rw [queue_nil]; exact on_bind_error stopped _⟩
      | ok result =>
        have later : enqueueBatch writersMap lib rest = .error fault := by
          cases rows : enqueueBatch writersMap lib rest with
          | error other => simpa [written, rows, bind, Except.bind] using failed
          | ok others => simp [written, rows, bind, Except.bind, pure, Except.pure] at failed
        obtain ⟨before, stopped⟩ := ih later (pp.queue result.2)
        refine ⟨result.2 ++ before, ?_⟩
        rw [on_bind_ok (writeTo_ok written pp), on_bind_ok (read _), ← queue_queue]
        exact on_bind_error stopped _

theorem flushOn_report (results : CommandResults) (entries : List (RedisBatchEntry V)) :
    (flushOn writersMap lib results entries).1 = flushBatch writersMap lib results entries := by
  unfold flushOn flushBatch
  cases queued : enqueueBatch writersMap lib entries with
  | error fault =>
    obtain ⟨before, stopped⟩ := writeRows_error queued .new
    rw [stopped]
    cases fault <;> rfl
  | ok rows =>
    rw [writeRows_ok queued .new]
    simp only
    cases exec results rows <;> rfl

end Batch

section Rendering

variable (w : RedisDynamicWriter) (lib : RedisLib V F) (entry : WriteEntry V) (commitTime xid : Nat)

variable (tuple : EntryTuple V)

/-- A group without a condition, or whose condition is true for the row. -/
def Chosen (group : RedisCompiledCommandGroup) : Prop :=
  ∀ cond ∈ group.condition, evaluate lib cond { entry with tuple := tuple } = .ok true

/-- A group whose condition is false or an error for the row. -/
def PassedOver (group : RedisCompiledCommandGroup) : Prop :=
  ∃ cond ∈ group.condition, evaluate lib cond { entry with tuple := tuple } = .ok false ∨
    ∃ text, evaluate lib cond { entry with tuple := tuple } = .error (.error text)

/-- Commands built in turn, with the tuple they start from and leave. -/
inductive Built : EntryTuple V → List RedisCompiledCommandConfig → EntryTuple V →
    List (RedisCommand F) → Prop
  | nil (tuple : EntryTuple V) : Built tuple [] tuple []
  -- A command without a name is left out.
  | cons {tuple mid after : EntryTuple V} {cmd : RedisCompiledCommandConfig}
      {rest : List RedisCompiledCommandConfig} {resolved : Option (RedisCommand F)}
      {others : List (RedisCommand F)}
      (built : w.buildCommand lib entry commitTime xid tuple cmd = .ok (mid, resolved))
      (later : Built mid rest after others) :
      Built tuple (cmd :: rest) after (resolved.toList ++ others)

/-- The rendered commands of the chosen groups, in configured order. -/
inductive Rendered : EntryTuple V → List RedisCompiledCommandGroup → EntryTuple V →
    List (RedisCommand F) → Prop
  | nil (tuple : EntryTuple V) : Rendered tuple [] tuple []
  | passed {tuple after : EntryTuple V} {group : RedisCompiledCommandGroup}
      {rest : List RedisCompiledCommandGroup} {cmds : List (RedisCommand F)}
      (passedOver : PassedOver lib entry tuple group) (later : Rendered tuple rest after cmds) :
      Rendered tuple (group :: rest) after cmds
  | chosen {tuple mid after : EntryTuple V} {group : RedisCompiledCommandGroup}
      {rest : List RedisCompiledCommandGroup} {own others : List (RedisCommand F)}
      (chosen : Chosen lib entry tuple group)
      (built : Built w lib entry commitTime xid tuple group.commands mid own)
      (later : Rendered mid rest after others) :
      Rendered tuple (group :: rest) after (own ++ others)

/-- A chosen group's command that cannot be built, all before it rendered. -/
def BuildFails (groups : List RedisCompiledCommandGroup)
    (cmd : RedisCompiledCommandConfig) (fault : Fault) : Prop :=
  ∃ before group behind earlier later mid here cmds own, groups = before ++ group :: behind ∧
    group.commands = earlier ++ cmd :: later ∧
    Rendered w lib entry commitTime xid tuple before mid cmds ∧ Chosen lib entry mid group ∧
    Built w lib entry commitTime xid mid earlier here own ∧
    w.buildCommand lib entry commitTime xid here cmd = .error fault

/-- A condition that faults other than by an error, all before it rendered. -/
def ConditionFails (groups : List RedisCompiledCommandGroup) (fault : Fault) : Prop :=
  ∃ before group behind cond mid cmds, groups = before ++ group :: behind ∧
    Rendered w lib entry commitTime xid tuple before mid cmds ∧ group.condition = some cond ∧
    evaluate lib cond { entry with tuple := mid } = .error fault ∧ ∀ text, fault ≠ .error text

/-- How a command's fault is passed on: an error names the command. -/
def passOn (cmd : RedisCompiledCommandConfig) : Fault → Fault
  | .error text => .error ("failed to build Redis command " ++ cmd.name ++ " for table " ++
      entry.table.fullName ++ ": " ++ text)
  | fault => fault

end Rendering

section Rendering

variable {w : RedisDynamicWriter} {lib : RedisLib V F} {entry : WriteEntry V} {commitTime xid : Nat}

variable {tuple : EntryTuple V} {groups : List RedisCompiledCommandGroup}

variable {group : RedisCompiledCommandGroup} {mid : EntryTuple V} {fault : Fault}

theorem Chosen.selects (chosen : Chosen lib entry tuple group) :
    RedisDynamicWriter.selects lib { entry with tuple := tuple } group = .ok true := by
  unfold RedisDynamicWriter.selects
  cases condition : group.condition with
  | none => rfl
  | some cond => simp [chosen cond condition]

theorem PassedOver.selects (passed : PassedOver lib entry tuple group) :
    selects lib { entry with tuple := tuple } group = .ok false := by
  obtain ⟨cond, condition, answers | ⟨text, answers⟩⟩ := passed
  · simp [RedisDynamicWriter.selects, Option.mem_def.mp condition, answers]
  · simp [RedisDynamicWriter.selects, Option.mem_def.mp condition, answers]

/-- Commands that are built go in front of the others. -/
theorem Built.buildCommands {cmds : List RedisCompiledCommandConfig} {own : List (RedisCommand F)}
    (built : Built w lib entry commitTime xid tuple cmds mid own)
    (more : List RedisCompiledCommandConfig) :
    w.buildCommands lib entry commitTime xid tuple (cmds ++ more) =
      (w.buildCommands lib entry commitTime xid mid more).map
        fun result => (result.1, own ++ result.2) := by
  induction built with
  | nil tuple =>
    rw [nil_append]
    cases w.buildCommands lib entry commitTime xid tuple more <;> rfl
  | cons here later ih =>
    rw [cons_append, RedisDynamicWriter.buildCommands, here]
    simp only [ih]
    cases w.buildCommands lib entry commitTime xid _ more with
    | error fault => rfl
    | ok result => simp [Except.map, bind, Except.bind, pure, Except.pure]

/-- Rendered commands stand before those of later groups. -/
theorem Rendered.buildGroups {cmds : List (RedisCommand F)}
    (rendered : Rendered w lib entry commitTime xid tuple groups mid cmds)
    (more : List RedisCompiledCommandGroup) :
    w.buildGroups lib entry commitTime xid tuple (groups ++ more) =
      (w.buildGroups lib entry commitTime xid mid more).map
        fun result => (result.1, cmds ++ result.2) := by
  induction rendered with
  | nil tuple =>
    rw [nil_append]
    cases w.buildGroups lib entry commitTime xid tuple more <;> rfl
  | passed passedOver later ih =>
    rw [cons_append, RedisDynamicWriter.buildGroups, buildGroup, passedOver.selects]
    simp only [bind, Except.bind, Bool.false_eq_true, if_false, pure, Except.pure, ih]
    cases w.buildGroups lib entry commitTime xid _ more <;> rfl
  | chosen chosen built later ih =>
    have own := built.buildCommands []
    rw [append_nil] at own
    rw [cons_append, RedisDynamicWriter.buildGroups, buildGroup, chosen.selects]
    simp only [bind, Except.bind, if_true, own, buildCommands, Except.map, ih]
    cases w.buildGroups lib entry commitTime xid _ more with
    | error fault => rfl
    | ok result => simp [pure, Except.pure]

theorem BuildFails.buildGroups {cmd : RedisCompiledCommandConfig}
    (fails : BuildFails w lib entry commitTime xid tuple groups cmd fault) :
    w.buildGroups lib entry commitTime xid tuple groups = .error (passOn entry cmd fault) := by
  obtain ⟨before, group, behind, earlier, later, mid, here, cmds, own, rfl, commands, rendered,
    chosen, built, failed⟩ := fails
  have stopped : w.buildCommands lib entry commitTime xid mid group.commands =
      .error (passOn entry cmd fault) := by
    rw [commands, built.buildCommands, buildCommands, failed]
    cases fault <;> rfl
  rw [rendered.buildGroups, buildGroups, buildGroup, chosen.selects]
  simp [bind, Except.bind, stopped, Except.map]

theorem ConditionFails.buildGroups
    (fails : ConditionFails w lib entry commitTime xid tuple groups fault) :
    w.buildGroups lib entry commitTime xid tuple groups = .error fault := by
  obtain ⟨before, group, behind, cond, mid, cmds, rfl, rendered, condition, failed, severe⟩ := fails
  have stopped : selects lib { entry with tuple := mid } group = .error fault := by
    unfold selects
    cases fault with
    | error text => exact absurd rfl (severe text)
    | panic text | fatal text => simp [condition, failed]
  rw [rendered.buildGroups, buildGroups, buildGroup, stopped]
  rfl

end Rendering

variable {w : RedisDynamicWriter} {lib : RedisLib V F} {entry : WriteEntry V}
  {commitTime xid : Nat}

end PgWalk.Redis
