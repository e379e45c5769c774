import PgWalk.Snapshot.Workers

/-! Every row of every task reaches the listener once, under numbers without gaps. -/

namespace PgWalk.Worker

open Worker.Pool List Option

open Function (update update_of_ne update_self)

variable {V : Type} {job : Job V} {s next : Pool V} {worker : Nat}

/-- What is left to do of a task. -/
structure Work (V : Type) where
  task : Nat
  -- The entries that have been read but not submitted.
  unsent : List (WriteEntry V)
  rest : List (List (Option V))

/-- What is left to do of the task that a worker is busy with. -/
def Phase.work : Phase V → Option (Work V)
  | .reading batch => some ⟨batch.task, batch.entries, batch.rest⟩
  | .sending batch _ .nextLSN => some ⟨batch.task, batch.entries, batch.rest⟩
  | .sending batch _ (.onSnapshotBatch _) => some ⟨batch.task, batch.entries, batch.rest⟩
  | .sending batch _ _ => some ⟨batch.task, [], batch.rest⟩
  | .taskDone task => some ⟨task, [], []⟩
  | _ => none

/-- The batches of a task that have been submitted, in their order. -/
def Pool.batches (s : Pool V) (task : Nat) : List (Submitted V) :=
  s.submitted.filter fun batch => batch.task = task

/-- A task's submitted entries, batch after batch. -/
def Pool.sent (s : Pool V) (task : Nat) : List (WriteEntry V) :=
  (s.batches task).flatMap fun batch => batch.request.entries

/-- A task's rows are submitted, read or still to be read, by one worker. -/
structure Pool.Accounted (job : Job V) (s : Pool V) : Prop where
  taken : ∀ worker work, (s.phase worker).work = some work → work.task < s.received
  -- The channel gives every task to one worker.
  alone : ∀ worker other work otherWork, (s.phase worker).work = some work →
    (s.phase other).work = some otherWork → work.task = otherWork.task → worker = other
  early : ∀ batch ∈ s.submitted, batch.task < s.received
  busy : ∀ worker work task, (s.phase worker).work = some work →
    job.tasks[work.task]? = some task → ∃ read, task.rows = read ++ work.rest ∧
      List.Forall₂ (job.Carries task) read (s.sent work.task ++ work.unsent)
  handled : ∀ index task, index < s.received →
    (∀ worker work, (s.phase worker).work = some work → work.task ≠ index) →
    job.tasks[index]? = some task → List.Forall₂ (job.Carries task) task.rows (s.sent index)

theorem Pool.work_update {phases : Nat → Phase V} {phase : Phase V} {other : Nat} {work : Work V}
    (busy : (update phases worker phase other).work = some work) :
    (other = worker ∧ phase.work = some work) ∨
      (other ≠ worker ∧ (phases other).work = some work) := by
  by_cases same : other = worker
  · subst same
    rw [update_self] at busy
    exact .inl ⟨rfl, busy⟩
  · rw [update_of_ne same] at busy
    exact .inr ⟨same, busy⟩

/-- A batch sent counts for its own task. -/
theorem Pool.sent_append {new : List (Submitted V)} {index : Nat}
    (submitted : next.submitted = s.submitted ++ new) (own : ∀ batch ∈ new, batch.task = index)
    (task : Nat) : next.sent task = s.sent task ++
      if task = index then new.flatMap fun batch => batch.request.entries else [] := by
  unfold sent batches
  rw [submitted, filter_append, flatMap_append]
  congr 1
  by_cases same : task = index
  · have all : (new.filter fun batch => batch.task = task) = new := by
      refine filter_eq_self.mpr fun batch member => decide_eq_true ?_
      exact (own batch member).trans same.symm
    rw [if_pos same, all]
  · have none : (new.filter fun batch => batch.task = task) = [] := by
      refine filter_eq_nil_iff.mpr fun batch member => ?_
      rw [own batch member, decide_eq_true_eq]
      exact Ne.symm same
    rw [if_neg same, none, flatMap_nil]

theorem Pool.sent_congr (submitted : next.submitted = s.submitted) (task : Nat) :
    next.sent task = s.sent task := by
  unfold sent batches
  rw [submitted]

namespace Pool.Accounted

section

variable (accounted : s.Accounted job)

include accounted

variable {new : List (Submitted V)}

/-- A step of a worker on one task that nobody else has. -/
theorem moved (index : Nat) {phase : Phase V}
    (phases : next.phase = update s.phase worker phase)
    (submitted : next.submitted = s.submitted ++ new) (own : ∀ batch ∈ new, batch.task = index)
    (received : s.received ≤ next.received) (inside : index < next.received)
    (only : ∀ other < next.received, other ≠ index → other < s.received)
    (before : ∀ work, (s.phase worker).work = some work → work.task = index)
    (after : ∀ work, phase.work = some work → work.task = index)
    (apart : ∀ other work, other ≠ worker → (s.phase other).work = some work → work.task ≠ index)
    (busy : ∀ work task, phase.work = some work → job.tasks[index]? = some task →
      ∃ read, task.rows = read ++ work.rest ∧
        List.Forall₂ (job.Carries task) read (next.sent index ++ work.unsent))
    (handled : phase.work = none → ∀ task, job.tasks[index]? = some task →
      List.Forall₂ (job.Carries task) task.rows (next.sent index)) : next.Accounted job := by
  -- The step concerns one task; the others are accounted as before.
  have elsewhere : ∀ task ≠ index, next.sent task = s.sent task := by
    intro task different
    rw [sent_append submitted own, if_neg different, append_nil]
  refine ⟨?_, ?_, ?_, ?_, ?_⟩
  · intro other work now
    rcases work_update (phases ▸ now) with ⟨-, mine⟩ | ⟨-, earlier⟩
    · exact after work mine ▸ inside
    · exact (accounted.taken other work earlier).trans_le received
  · -- Either one of the two is the worker of the step, or neither has changed.
    intro first second work otherWork firstNow secondNow same
    rcases work_update (phases ▸ firstNow) with ⟨rfl, mine⟩ | ⟨firstApart, earlier⟩
    · rcases work_update (phases ▸ secondNow) with ⟨rfl, -⟩ | ⟨different, otherBusy⟩
      · rfl
      · exact absurd (same.symm.trans (after work mine)) (apart second _ different otherBusy)
    · rcases work_update (phases ▸ secondNow) with ⟨rfl, mine⟩ | ⟨-, otherBusy⟩
      · exact absurd (same.trans (after otherWork mine)) (apart first _ firstApart earlier)
      · exact accounted.alone first second work otherWork earlier otherBusy same
  · intro batch member
    rw [submitted] at member
    rcases mem_append.mp member with earlier | now
    · exact (accounted.early batch earlier).trans_le received
    · exact own batch now ▸ inside
  · intro other work task now found
    rcases work_update (phases ▸ now) with ⟨-, mine⟩ | ⟨different, earlier⟩
    · rw [after work mine] at found ⊢
      exact busy work task mine found
    · rw [elsewhere _ (apart other work different earlier)]
      exact accounted.busy other work task earlier found
  · intro task rangeTask below unowned found
    by_cases here : task = index
    · -- Nobody is busy with the task of the step, so the worker has left it.
      subst here
      refine handled ?_ rangeTask found
      by_contra busy
      obtain ⟨work, mine⟩ := ne_none_iff_exists'.mp busy
      refine unowned worker work ?_ (after work mine)
      rw [phases, update_self]
      exact mine
    · -- Another task was as free before the step, and as much of it had been submitted.
      rw [elsewhere task here]
      refine accounted.handled task rangeTask (only task below here) ?_ found
      intro someone work earlier
      by_cases same : someone = worker
      · exact before work (same ▸ earlier) ▸ Ne.symm here
      · refine unowned someone work ?_
        rw [phases, update_of_ne same]
        exact earlier

theorem apart {own : Work V} (busy : (s.phase worker).work = some own) (other : Nat)
    (work : Work V) (different : other ≠ worker) (otherBusy : (s.phase other).work = some work) :
    work.task ≠ own.task := by
  intro same
  exact different (accounted.alone other worker work own otherBusy busy same)

/-- A worker goes on; what it submits and keeps is what it had. -/
theorem within {before after : Work V} {phase : Phase V}
    (busy : (s.phase worker).work = some before) (still : phase.work = some after)
    (task : after.task = before.task) (phases : next.phase = update s.phase worker phase)
    (received : next.received = s.received) (submitted : next.submitted = s.submitted ++ new)
    (own : ∀ batch ∈ new, batch.task = before.task)
    (flow : ∀ rangeTask, job.tasks[before.task]? = some rangeTask → ∃ read entries,
      before.rest = read ++ after.rest ∧ List.Forall₂ (job.Carries rangeTask) read entries ∧
      before.unsent ++ entries = (new.flatMap fun batch => batch.request.entries) ++ after.unsent) :
    next.Accounted job := by
  -- What was read behind the earlier rows is behind their entries.
  refine accounted.moved _ phases submitted own received.ge ?_ (fun _ below _ => received ▸ below)
    ?_ ?_ (accounted.apart busy) ?_ (fun none => by rw [none] at still; cases still)
  · exact received ▸ accounted.taken worker before busy
  · intro work mine
    rw [some.inj (mine.symm.trans busy)]
  · intro work mine
    rw [some.inj (mine.symm.trans still), task]
  · intro work rangeTask mine found
    obtain rfl := some.inj (still.symm.trans mine)
    obtain ⟨earlier, rows, carried⟩ := accounted.busy worker before rangeTask busy found
    obtain ⟨read, entries, more, now, same⟩ := flow rangeTask found
    refine ⟨earlier ++ read, by rw [rows, more, append_assoc], ?_⟩
    rw [sent_append submitted own, if_pos rfl, append_assoc, ← same, ← append_assoc]
    exact rel_append carried now

/-- A worker that keeps its work keeps the account. -/
theorem same {phase : Phase V} (work : phase.work = (s.phase worker).work)
    (phases : next.phase = update s.phase worker phase)
    (received : next.received = s.received) (submitted : next.submitted = s.submitted) :
    next.Accounted job := by
  -- Seen by their work alone, the workers are where they were.
  have works : ∀ other, (next.phase other).work = (s.phase other).work := by
    intro other
    rw [phases]
    by_cases here : other = worker
    · rw [here, update_self, work]
    · rw [update_of_ne here]
  have sent := sent_congr submitted
  refine ⟨?_, ?_, ?_, ?_, ?_⟩
  · intro other work now
    rw [received]
    exact accounted.taken other work (works other ▸ now)
  · intro first second work otherWork firstNow secondNow
    exact accounted.alone first second work otherWork (works first ▸ firstNow)
      (works second ▸ secondNow)
  · rw [submitted, received]
    exact accounted.early
  · intro other work task now
    rw [sent]
    exact accounted.busy other work task (works other ▸ now)
  · intro index task below unowned
    rw [sent]
    refine accounted.handled index task (received ▸ below) fun other work earlier => ?_
    exact unowned other work ((works other).trans earlier)

/-- A task received is accounted from its start. -/
theorem receive {task : TableRangeTask V} {phase : Phase V} (free : (s.phase worker).work = none)
    (found : job.tasks[s.received]? = some task)
    (work : phase.work = some ⟨s.received, [], task.rows⟩)
    (phases : next.phase = update s.phase worker phase)
    (received : next.received = s.received + 1) (submitted : next.submitted = s.submitted) :
    next.Accounted job := by
  -- The task is new: nothing is submitted and nobody is busy with it.
  have unsent : s.sent s.received = [] := by
    unfold sent batches
    rw [filter_eq_nil_iff.mpr, flatMap_nil]
    intro batch member same
    exact Nat.ne_of_lt (accounted.early batch member) (of_decide_eq_true same)
  refine accounted.moved s.received phases (submitted.trans (append_nil _).symm) (by simp)
    (by omega) (by omega) (by omega) ?_ ?_ ?_ ?_ (fun none => by rw [none] at work; cases work)
  · intro own busy
    rw [free] at busy
    cases busy
  · intro own mine
    rw [some.inj (mine.symm.trans work)]
  · intro other own _ busy
    exact Nat.ne_of_lt (accounted.taken other own busy)
  · intro own rangeTask mine known
    obtain rfl := some.inj (work.symm.trans mine)
    obtain rfl := some.inj (found.symm.trans known)
    rw [sent_congr submitted, unsent]
    exact ⟨[], rfl, .nil⟩

/-- A worker with nothing left of its task goes back to the channel. -/
theorem leave {index : Nat} {phase : Phase V}
    (busy : (s.phase worker).work = some ⟨index, [], []⟩) (free : phase.work = none)
    (phases : next.phase = update s.phase worker phase)
    (received : next.received = s.received) (submitted : next.submitted = s.submitted) :
    next.Accounted job := by
  have none : ∀ work : Work V, phase.work ≠ some work := by
    intro work mine
    rw [free] at mine
    cases mine
  refine accounted.moved index phases (submitted.trans (append_nil _).symm) (by simp)
    received.ge ?_ (fun _ below _ => received ▸ below) ?_
    (fun work mine => absurd mine (none work)) (accounted.apart busy)
    (fun work _ mine => absurd mine (none work)) ?_
  · exact received ▸ accounted.taken worker _ busy
  · intro work mine
    rw [some.inj (mine.symm.trans busy)]
  · -- The task that is left has been submitted as a whole.
    intro _ task found
    obtain ⟨read, rows, carried⟩ := accounted.busy worker _ task busy found
    rw [sent_congr submitted, rows, append_nil]
    simpa using carried

end

end Pool.Accounted

theorem Batch.work_sent {batch : Batch V} {last : Bool} (rest : last = true → batch.rest = []) :
    (batch.sent last).work = some ⟨batch.task, [], batch.rest⟩ := by
  cases last with
  | true => rw [rest rfl]; rfl
  | false => rfl

/-- Every step keeps the account of the rows. -/
theorem Pool.Accounted.step (positive : 1 ≤ job.batchSize) (small : job.batchSize < 2 ^ 32)
    (accounted : s.Accounted job) (sound : s.Sound job.batchSize.toNat)
    (stepped : Stepped job s worker next) : next.Accounted job := by
  -- Rows move from those to be read to those to be sent, and out.
  have own := sound.phases worker
  cases stepped with
  | finish at_ | leftOver batch at_
  | number batch last at_
  | report batch last lsn reports at_
  | loaded batch last lsn at_
  | lost batch last lsn current at_ => exact accounted.same (by rw [at_]; rfl) rfl rfl rfl
  | receive task at_ found => exact accounted.receive (by rw [at_]; rfl) found rfl rfl rfl rfl
  | read batch task values rest phase at_ found more read =>
    obtain ⟨entry, made, -, grown⟩ := job.readRow_eq_ok positive small (at_ ▸ own) read
    have after : phase.work = some ⟨batch.task, batch.entries ++ [entry], rest⟩ := by
      rcases grown with rfl | rfl
      · rfl
      · rfl
    have before : (s.phase worker).work = some ⟨batch.task, batch.entries, batch.rest⟩ :=
      congrArg Phase.work at_
    have none : (s.go worker phase).submitted = s.submitted ++ [] := (append_nil _).symm
    refine accounted.within before after rfl rfl rfl none (by simp) ?_
    intro rangeTask known
    obtain rfl := some.inj (found.symm.trans known)
    exact ⟨[values], [entry], more, .cons (job.entry_carries made).2 .nil, by simp⟩
  | ended batch at_ rest none =>
    -- No rows are left, and a count of zero means that none wait to be sent.
    rw [at_] at own
    have empty : batch.entries = [] := length_eq_zero_iff.mp (own.1.count.symm.trans none)
    refine accounted.same ?_ rfl rfl rfl
    rw [at_]
    simp [Phase.work, rest, empty]
  | submit batch last lsn at_ =>
    have before : (s.phase worker).work = some ⟨batch.task, batch.entries, batch.rest⟩ :=
      congrArg Phase.work at_
    have after : (Phase.sending batch last (.report lsn)).work =
        some ⟨batch.task, [], batch.rest⟩ := rfl
    refine accounted.within before after rfl rfl rfl rfl (by simp) ?_
    -- The entries have moved from the worker to the listener, in their order.
    intro rangeTask _
    exact ⟨[], [], rfl, .nil, by simp [WriteRequest.newSnapshotRequest]⟩
  | known batch last lsn at_ =>
    -- After the last batch leaving the loop loses no row.
    rw [at_] at own
    exact accounted.same (by rw [at_, Batch.work_sent own.2.2.2.1]; rfl) rfl rfl rfl
  | swapped batch last lsn current at_ =>
    rw [at_] at own
    exact accounted.same (by rw [at_, Batch.work_sent own.2.2.2.1]; rfl) rfl rfl rfl
  | done index reports at_ => exact accounted.leave (by rw [at_]; rfl) rfl rfl rfl rfl

/-- A step changes its worker's phase only; the channel ends it. -/
theorem Stepped.frame (stepped : Stepped job s worker next) :
    ∃ phase, next.phase = update s.phase worker phase ∧ s.received ≤ next.received ∧
      (phase = .finished → job.tasks.length ≤ next.received) := by
  -- A batch that has been sent leads on to the next rows or out of the task.
  have sent : ∀ (batch : Batch V) (last : Bool), batch.sent last = .finished →
      job.tasks.length ≤ s.received := by
    intro batch last impossible
    unfold Batch.sent at impossible
    split at impossible
    · cases impossible
    · cases impossible
  cases stepped with
  | finish _ closed =>
    exact ⟨_, rfl, Nat.le_refl _, fun _ => getElem?_eq_none_iff.mp closed⟩
  | receive => exact ⟨_, rfl, Nat.le_succ _, fun impossible => by cases impossible⟩
  | read batch task values rest phase _ _ _ read =>
    refine ⟨_, rfl, Nat.le_refl _, fun same => ?_⟩
    obtain ⟨entry, -, read⟩ := bind_eq_ok.mp read
    have either := (Except.ok.inj read).trans same
    split at either
    · cases either
    · cases either
  | known batch last | swapped batch last => exact ⟨_, rfl, Nat.le_refl _, sent batch last⟩
  | leftOver | ended | number | submit | report | loaded | lost | done =>
    exact ⟨_, rfl, Nat.le_refl _, fun impossible => by cases impossible⟩

/-- What holds of the workers at every moment. -/
structure Pool.Inv (job : Job V) (s : Pool V) : Prop where
  sound : s.Sound job.batchSize.toNat
  orderly : Tickets.Orderly s.desk
  accounted : s.Accounted job
  outside : ∀ worker, job.workers ≤ worker → s.phase worker = .receiving
  closed : ∀ worker, s.phase worker = .finished → job.tasks.length ≤ s.received

namespace Pool.Inv

theorem start : (Worker.start : Pool V).Inv job where
  sound := ⟨fun _ => trivial, by simp [Worker.start]⟩
  orderly := .start
  accounted := by
    refine ⟨?_, ?_, ?_, ?_, ?_⟩ <;> simp [Worker.start, Phase.work]
  outside _ _ := rfl
  closed := by simp [Worker.start]

/-- Every step keeps the invariant. -/
theorem step (positive : 1 ≤ job.batchSize) (small : job.batchSize < 2 ^ 32) (inv : s.Inv job)
    (taken : job.step s worker = some next) : next.Inv job := by
  obtain ⟨inside, stepped⟩ := job.stepped taken
  obtain ⟨phase, phases, received, finishes⟩ := stepped.frame
  refine ⟨inv.sound.step positive small stepped, ?_,
    inv.accounted.step positive small inv.sound stepped, ?_, ?_⟩
  · rcases stepped.desk (inv.sound.phases worker) with same | moved
    · exact same ▸ inv.orderly
    · exact inv.orderly.move moved
  · intro other beyond
    have different : other ≠ worker := by omega
    rw [phases, update_of_ne different]
    exact inv.outside other beyond
  · intro other finished
    rw [phases] at finished
    by_cases same : other = worker
    · rw [same, update_self] at finished
      exact finishes finished
    · rw [update_of_ne same] at finished
      exact (inv.closed other finished).trans received

end Pool.Inv

/-- A task that was taken and that nobody is busy with any more. -/
def Pool.Processed (s : Pool V) (index : Nat) : Prop :=
  index < s.received ∧ ∀ worker work, (s.phase worker).work = some work → work.task ≠ index

/--
However the workers take turns, the batches of a task are its rows in their order and can be tracked
as they are, and in the end their numbers are those up to their count.
-/
theorem snapshot_batches (positive : 1 ≤ job.batchSize) (small : job.batchSize < 2 ^ 32)
    {schedule : List Nat} {last : Pool V} (reached : Runs.run job.step start schedule = some last) :
    (∀ batch ∈ last.submitted, batch.Usable job.batchSize.toNat) ∧
      (last.submitted.map Submitted.lsn).Nodup ∧
      (∀ index task, job.tasks[index]? = some task → last.Processed index →
        List.Forall₂ (job.Carries task) task.rows (last.sent index)) ∧
      ((∀ worker < job.workers, last.phase worker = .finished) →
        (last.submitted.map Submitted.lsn).Perm (List.range' 1 last.submitted.length) ∧
        last.lsnTracker.maxSubmitted = last.submitted.length ∧
        (0 < job.workers → ∀ index < job.tasks.length, last.Processed index)) := by
  -- A worker that has finished has no number and no task.
  have inv : last.Inv job :=
    Runs.invariant (fun _ _ _ before _ taken => before.step positive small taken) .start
      Runs.along_true reached
  refine ⟨inv.sound.submitted, inv.orderly.distinct, ?_, ?_⟩
  · intro index task found processed
    exact inv.accounted.handled index task processed.1 processed.2 found
  · intro finished
    have free : ∀ worker, (last.phase worker).held = none ∧ (last.phase worker).unmarked = none ∧
        (last.phase worker).work = none := by
      intro worker
      by_cases inside : worker < job.workers
      · rw [finished worker inside]
        exact ⟨rfl, rfl, rfl⟩
      · rw [inv.outside worker (Nat.not_lt.mp inside)]
        exact ⟨rfl, rfl, rfl⟩
    obtain ⟨numbers, greatest⟩ :=
      inv.orderly.settled (fun worker => (free worker).1) fun worker => (free worker).2.1
    have count : last.desk.used.length = last.submitted.length := length_map ..
    refine ⟨count ▸ numbers, count ▸ greatest, ?_⟩
    -- Any one worker finishes only after all tasks have been taken from the channel.
    intro someone index below
    refine ⟨below.trans_le (inv.closed 0 (finished 0 someone)), ?_⟩
    intro worker work busy
    rw [(free worker).2.2] at busy
    cases busy

namespace Sample

/-- A range of users whose query answers with these rows. -/
def range (rows : List (List (Option (List UInt8)))) : TableRangeTask (List UInt8) :=
  ⟨PgWalk.Sample.users, none, ["id", "name"], rows⟩

def twoRanges : Job (List UInt8) :=
  ⟨PgWalk.Sample.codec, ⟨false, ""⟩, 2, 2,
    [range [[some [49], some [97]]], range [[some [50], some [98]]]]⟩

/-- The second worker marks its number within the first one's swap. -/
def schedule : List Nat := [0, 0, 0, 0, 0, 0, 0, 1, 1, 1, 1, 1, 1, 1, 1, 0, 0, 0, 0, 1, 1]

end Sample

/-- A lost swap leaves the greater number, and each row its values. -/
theorem snapshot_batches_lost : ∃ last entry,
    Runs.run Sample.twoRanges.step start Sample.schedule = some last ∧
      last.lsnTracker.maxSubmitted = last.submitted.length ∧ last.submitted.length = 2 ∧
      last.sent 0 = [entry] ∧ entry.tuple.get "id" = .ok (some (some [49])) ∧
      entry.tuple.get "name" = .ok (some (some [97])) := by
  -- The first task has one row, and its entry has its values.
  obtain ⟨last, reached, first, second, count⟩ : ∃ last,
      Runs.run Sample.twoRanges.step start Sample.schedule = some last ∧
        last.phase 0 = .finished ∧ last.phase 1 = .finished ∧ last.submitted.length = 2 :=
    ⟨_, rfl, rfl, rfl, rfl⟩
  have finished : ∀ worker < Sample.twoRanges.workers, last.phase worker = .finished := by
    intro worker below
    have cases : worker = 0 ∨ worker = 1 := by
      have below : worker < 2 := below
      omega
    rcases cases with rfl | rfl
    · exact first
    · exact second
  obtain ⟨-, -, rows, settled⟩ :=
    @snapshot_batches _ Sample.twoRanges (by decide) (by decide) Sample.schedule last reached
  obtain ⟨-, greatest, processed⟩ := settled finished
  obtain ⟨entry, _, carries, none, sent⟩ := forall₂_cons_left_iff.mp
    (rows 0 _ rfl (processed (by decide) 0 (by decide)))
  cases none
  obtain ⟨rowMap, same, -, -, stored⟩ := carries.tuple
  obtain ⟨_, first, id⟩ := stored 0 "id" rfl (by simp [Sample.range])
  obtain ⟨_, second, name⟩ := stored 1 "name" rfl (by simp [Sample.range])
  cases first
  cases second
  refine ⟨last, entry, reached, greatest, count, sent, ?_, ?_⟩
  · rw [same]
    exact congrArg Except.ok id
  · rw [same]
    exact congrArg Except.ok name

end PgWalk.Worker
