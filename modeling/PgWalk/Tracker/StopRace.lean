import PgWalk.Tracker.Known
import PgWalk.Tracker.Resend

/-! A tracker that is being stopped while answers for failed entries are on their way. -/

namespace PgWalk

open List

variable {V : Type}

/-- Which statement of the stop comes next. -/
inductive StopPhase
  | notCalled
  | stopTracking
  | stopReady
  | stopWheel
  | stopped
deriving DecidableEq

/-- A tracker with the calls on it that have begun and not returned. -/
structure StopRace (V : Type) where
  tracker : PGBufferedLSNTracker V
  -- The writes that have been handed out.
  popped : List (WriteRequest V)
  -- Answers for failed entries that have passed the test for a stop and wait for the lock.
  tested : List ErrResponse
  -- Entries to give up and writes to try again, of answers that have left the lock.
  leaving : List (AckMap × List (RetryEntry V))
  stop : StopPhase
  -- Whether the process has ended because a write was missing.
  crashed : Bool

/-- What may happen next. -/
inductive RaceLabel (V : Type)
  -- A call other than one for failed entries.
  | call (op : TrackerOp V)
  -- An answer for failed entries: the test, what is done under the lock, and what follows.
  | test (resp : ErrResponse)
  | body (index : Nat)
  | ack (index : Nat)
  | schedule (index : Nat) (accepted : Bool)
  -- The next statement of the stop.
  | stop

namespace StopRace

def start (config : RetryConfig) : StopRace V :=
  ⟨.newLSNTracker config, [], [], [], .notCalled, false⟩

variable (s : StopRace V)

def call (op : TrackerOp V) : Option (StopRace V) :=
  match op with
  | .onError _ _ => none
  | op => (trackerStep s.tracker op).map fun next =>
    { s with tracker := next, popped := s.popped ++ poppedBy s.tracker op }

/-- Test whether the tracker is stopping, without the lock. -/
def test (resp : ErrResponse) : StopRace V :=
  if resp.entries.isEmpty || s.tracker.stopCtx then s else { s with tested := s.tested ++ [resp] }

/-- Look at the failed entries of an answer under the lock. -/
def body (index : Nat) : Option (StopRace V) :=
  match s.tested[index]? with
  | none => none
  | some resp =>
    let left := { s with tested := s.tested.eraseIdx index }
    match s.tracker.processErrorEntries [] [] resp.entries with
    | .error _ => some { left with crashed := true }
    | .ok (t, .shutdown reason) => some { left with
        tracker := { t with coordinatedShutdownCh := t.coordinatedShutdownCh ++ [reason] } }
    | .ok (t, .retry acks retries) => some { left with
        tracker := t, leaving := s.leaving ++ [(acks, retries)] }

/-- Give up entries, in a second turn under the lock. -/
def ack (index : Nat) : Option (StopRace V) :=
  match s.leaving[index]? with
  | none => none
  | some (acks, retries) => some { s with
      tracker := s.tracker.ackAll acks, leaving := s.leaving.set index ([], retries) }

/-- Set the next timer, once entries have been given up. -/
def schedule (index : Nat) (accepted : Bool) : Option (StopRace V) :=
  match s.leaving[index]? with
  | some ([], retry :: rest) => some { s with
      tracker := .scheduleRetry (fun _ => accepted) s.tracker retry
      leaving := s.leaving.set index ([], rest) }
  | _ => none

def stopNext : Option (StopRace V) :=
  match s.stop with
  | .notCalled => some { s with
      tracker := { s.tracker with stopCtx := true }
      stop := .stopTracking }
  | .stopTracking => some { s with
      tracker := { s.tracker with trackingQueue := s.tracker.trackingQueue.stop }
      stop := .stopReady }
  | .stopReady => some { s with
      tracker := { s.tracker with readyQueue := s.tracker.readyQueue.stop }
      stop := .stopWheel }
  | .stopWheel => some { s with tracker := { s.tracker with retryWheel := [] }, stop := .stopped }
  | .stopped => none

/-- Take a step, unless the process has ended. -/
def step (label : RaceLabel V) : Option (StopRace V) :=
  if s.crashed then none
  else match label with
    | .call op => s.call op
    | .test resp => some (s.test resp)
    | .body index => s.body index
    | .ack index => s.ack index
    | .schedule index accepted => s.schedule index accepted
    | .stop => s.stopNext

/-- An answer for failures is about writes above zero handed out before. -/
def Answers : RaceLabel V → Prop
  | .test resp => ∀ entry ∈ resp.entries, 0 < entry.responseEntry.lsn ∧
      ∃ write ∈ s.popped, write.lsn = entry.responseEntry.lsn
  | _ => True

/-- The stop does not overtake an answer. -/
def Waits : RaceLabel V → Prop
  | .stop => s.stop = .stopTracking → ∀ resp ∈ s.tested, ∀ entry ∈ resp.entries,
      s.tracker.isAcknowledged entry.responseEntry.lsn = true
  | _ => True

open PGBufferedLSNTracker

/-- What holds while no write is missing. -/
structure Inv (s : StopRace V) : Prop where
  alive : s.crashed = false
  sound : s.tracker.Sound
  running : s.stop = .notCalled → s.tracker.stopCtx = false
  signalled : s.stop ≠ .notCalled → s.tracker.stopCtx = true
  serving : s.tracker.stopCtx = false → s.tracker.trackingQueue.stopped = false
  popped : ∀ write ∈ s.popped, 0 < write.lsn → s.tracker.Knows write.lsn
  tested : ∀ resp ∈ s.tested, ∀ entry ∈ resp.entries, 0 < entry.responseEntry.lsn ∧
    s.tracker.Knows entry.responseEntry.lsn
  -- Nothing can be looked up any more, so nothing may have to be.
  stopped : s.tracker.trackingQueue.stopped = true → ∀ resp ∈ s.tested, ∀ entry ∈ resp.entries,
    s.tracker.isAcknowledged entry.responseEntry.lsn = true
  leaving : ∀ left ∈ s.leaving, ∀ retry ∈ left.2, 0 < retry.write.lsn →
    s.tracker.Knows retry.write.lsn

namespace Inv

variable {s next : StopRace V}

theorem start (config : RetryConfig) : Inv (StopRace.start config : StopRace V) where
  alive := rfl
  sound := .start config
  running _ := rfl
  signalled called := absurd rfl called
  serving _ := rfl
  popped := by simp [StopRace.start]
  tested := by simp [StopRace.start]
  stopped := by simp [StopRace.start]
  leaving := by simp [StopRace.start]

/-- The tracker goes on, with answers and writes that are known. -/
theorem carries (inv : Inv s) {t : PGBufferedLSNTracker V} (carries : Carries s.tracker t)
    {popped : List (WriteRequest V)} {tested : List ErrResponse}
    {leaving : List (AckMap × List (RetryEntry V))}
    (handed : ∀ write ∈ popped, write ∈ s.popped ∨ (0 < write.lsn → s.tracker.Knows write.lsn))
    (fewer : ∀ resp ∈ tested, resp ∈ s.tested)
    (left : ∀ item ∈ leaving, ∀ retry ∈ item.2, (∃ before ∈ s.leaving, retry ∈ before.2) ∨
      (0 < retry.write.lsn → s.tracker.Knows retry.write.lsn)) :
    Inv { s with tracker := t, popped := popped, tested := tested, leaving := leaving } where
  alive := inv.alive
  sound := carries.sound
  running called := carries.stopCtx.trans (inv.running called)
  signalled called := carries.stopCtx.trans (inv.signalled called)
  serving running := carries.stopped.trans (inv.serving (carries.stopCtx.symm.trans running))
  popped write member positive := by
    rcases handed write member with before | known
    · exact carries.known _ positive (inv.popped write before positive)
    · exact carries.known _ positive (known positive)
  tested resp member entry listed := by
    obtain ⟨positive, known⟩ := inv.tested resp (fewer resp member) entry listed
    exact ⟨positive, carries.known _ positive known⟩
  stopped stopped resp member entry listed := carries.acked _
    (inv.stopped (carries.stopped.symm.trans stopped) resp (fewer resp member) entry listed)
  leaving item member retry listed positive := by
    rcases left item member retry listed with ⟨before, held, earlier⟩ | known
    · exact carries.known _ positive (inv.leaving before held retry earlier positive)
    · exact carries.known _ positive (known positive)

/-- Every call keeps the invariant. -/
theorem call (inv : Inv s) {op : TrackerOp V} (taken : s.call op = some next) : Inv next := by
  -- Only waiting for a write hands one out, and that one is held.
  have noError : ∀ resp setTimer, op ≠ .onError resp setTimer := by
    rintro resp setTimer rfl
    cases taken
  have called : (trackerStep s.tracker op).map (fun next =>
      { s with tracker := next, popped := s.popped ++ poppedBy s.tracker op }) = some next := by
    cases op with
    | onError resp setTimer => exact absurd rfl (noError resp setTimer)
    | _ => exact taken
  obtain ⟨after, done, rfl⟩ := Option.map_eq_some_iff.mp called
  refine inv.carries (inv.sound.call inv.serving noError done) (fun write member => ?_)
    (fun _ member => member) fun item member retry listed => .inl ⟨item, member, listed⟩
  rcases mem_append.mp member with before | now
  · exact .inl before
  · cases op with
    | popRound =>
      obtain ⟨⟨write, after⟩, popped, rfl⟩ := Option.map_eq_some_iff.mp done
      simp only [poppedBy, popped, Option.bind_some, Option.mem_toList] at now
      obtain ⟨addr, held⟩ := (Inherits.popRound popped).2 _ now
      exact .inr (inv.sound.writes addr _ held)
    | _ => cases now

/-- Testing an answer keeps the invariant. -/
theorem test (inv : Inv s) {resp : ErrResponse} (answers : s.Answers (.test resp)) :
    Inv (s.test resp) := by
  rw [StopRace.test]
  split
  · exact inv
  rename_i passes
  simp only [Bool.or_eq_true, not_or, Bool.not_eq_true] at passes
  refine ⟨inv.alive, inv.sound, inv.running, inv.signalled, inv.serving, inv.popped,
    fun other member => ?_, fun stopped => ?_, inv.leaving⟩
  · rcases mem_append.mp member with before | now
    · exact inv.tested other before
    · obtain rfl := mem_singleton.mp now
      intro entry listed
      obtain ⟨positive, write, handed, same⟩ := answers entry listed
      refine ⟨positive, ?_⟩
      rw [← same] at positive ⊢
      exact inv.popped write handed positive
  · -- The tracker is not stopping, so its queue serves.
    rw [inv.serving passes.2] at stopped
    cases stopped

variable {index : Nat}

/-- Handling an answer keeps the invariant. -/
theorem body (inv : Inv s) (taken : s.body index = some next) : Inv next := by
  -- A position that is known and not tracked is acknowledged.
  rw [StopRace.body] at taken
  cases found : s.tested[index]? with
  | none => simp [found] at taken
  | some resp =>
    have tested := mem_of_getElem? found
    have looked : ∀ entry ∈ resp.entries,
        s.tracker.findTrackedWrite entry.responseEntry.lsn = none →
          s.tracker.isAcknowledged entry.responseEntry.lsn = true := by
      intro entry listed missing
      cases stopped : s.tracker.trackingQueue.stopped with
      | true => exact inv.stopped stopped resp tested entry listed
      | false =>
        rcases (inv.tested resp tested entry listed).2 with ⟨_, member, same⟩ | acked
        · obtain ⟨item, filed, rfl⟩ := mem_map.mp member
          exact absurd same ((findTrackedWrite_eq_none stopped).mp missing item filed)
        · exact acked
    obtain ⟨t, result, processed⟩ := processErrorEntries_returns looked [] []
    obtain ⟨inherits, known⟩ := processErrorEntries_inherits processed
    have fewer : ∀ other ∈ s.tested.eraseIdx index, other ∈ s.tested :=
      fun other member => mem_of_mem_eraseIdx member
    simp only [found, processed] at taken
    cases result with
    | shutdown reason =>
      cases taken
      have sent : Inherits s.tracker
          { t with coordinatedShutdownCh := t.coordinatedShutdownCh ++ [reason] } :=
        ⟨⟨inherits.stopCtx, inherits.queue, inherits.fresh, inherits.maxAck, inherits.point⟩,
          inherits.writes, inherits.timers⟩
      exact inv.carries (inv.sound.inherits sent) (fun _ member => .inl member) fewer
        fun item member retry listed => .inl ⟨item, member, listed⟩
    | retry acks retries =>
      cases taken
      refine inv.carries (inv.sound.inherits inherits) (fun _ member => .inl member) fewer
        fun item member retry listed => ?_
      rcases mem_append.mp member with before | now
      · exact .inl ⟨item, before, listed⟩
      · obtain rfl := mem_singleton.mp now
        right
        rcases known acks retries rfl retry listed with none | ⟨addr, write, held, same⟩
        · cases none
        · rw [same]
          exact inv.sound.writes addr write held

theorem mem_set {acks : AckMap} {retries rest : List (RetryEntry V)}
    (found : s.leaving[index]? = some (acks, retries)) (fewer : ∀ retry ∈ rest, retry ∈ retries) :
    ∀ item ∈ s.leaving.set index ([], rest), ∀ retry ∈ item.2,
      ∃ before ∈ s.leaving, retry ∈ before.2 := by
  intro item member retry listed
  rcases mem_or_eq_of_mem_set member with before | rfl
  · exact ⟨item, before, listed⟩
  · exact ⟨_, mem_of_getElem? found, fewer retry listed⟩

theorem ack (inv : Inv s) (taken : s.ack index = some next) : Inv next := by
  rw [StopRace.ack] at taken
  split at taken
  · cases taken
  · rename_i acks retries found
    cases taken
    exact inv.carries (inv.sound.inherits (.ackAll _ acks)) (fun _ member => .inl member)
      (fun _ member => member) fun item member retry listed =>
        .inl (mem_set found (fun _ member => member) item member retry listed)

theorem schedule (inv : Inv s) {accepted : Bool} (taken : s.schedule index accepted = some next) :
    Inv next := by
  rw [StopRace.schedule] at taken
  split at taken
  · rename_i retry rest found
    cases taken
    have known := inv.leaving _ (mem_of_getElem? found) retry mem_cons_self
    exact inv.carries (inv.sound.scheduleRetry known _) (fun _ member => .inl member)
      (fun _ member => member) fun item member retry listed =>
        .inl (mem_set found (fun _ => mem_cons_of_mem _) item member retry listed)
  · cases taken

/-- Stopping keeps the invariant. -/
theorem stopNext (inv : Inv s) (waits : s.Waits .stop) (taken : s.stopNext = some next) :
    Inv next := by
  -- From here on answers may only be about what is acknowledged.
  rw [StopRace.stopNext] at taken
  split at taken
  · cases taken
    exact ⟨inv.alive, inv.sound.stopping _ _ _ fun _ member => member, nofun, fun _ => rfl, nofun,
      inv.popped, inv.tested, inv.stopped, inv.leaving⟩
  · rename_i phase
    cases taken
    have signalled := inv.signalled (by rw [phase]; nofun)
    exact ⟨inv.alive, inv.sound.stopping _ _ _ fun _ member => member, nofun, fun _ => signalled,
      fun running => by simp [signalled] at running, inv.popped, inv.tested,
      fun _ => waits phase, inv.leaving⟩
  · rename_i phase
    cases taken
    have signalled := inv.signalled (by rw [phase]; nofun)
    exact ⟨inv.alive, inv.sound.stopping _ _ _ fun _ member => member, nofun, fun _ => signalled,
      inv.serving, inv.popped, inv.tested, inv.stopped, inv.leaving⟩
  · rename_i phase
    cases taken
    have signalled := inv.signalled (by rw [phase]; nofun)
    exact ⟨inv.alive, inv.sound.stopping _ _ _ (by simp), nofun, fun _ => signalled,
      inv.serving, inv.popped, inv.tested, inv.stopped, inv.leaving⟩
  · cases taken

theorem step (inv : Inv s) {label : RaceLabel V} (answers : s.Answers label)
    (waits : s.Waits label) (taken : s.step label = some next) : Inv next := by
  have alive : ¬ s.crashed = true := by
    rw [inv.alive]
    nofun
  simp only [StopRace.step, if_neg alive] at taken
  cases label with
  | call op => exact inv.call taken
  | test resp =>
    cases taken
    exact inv.test answers
  | body index => exact inv.body taken
  | ack index => exact inv.ack taken
  | schedule index accepted => exact inv.schedule taken
  | stop => exact inv.stopNext waits taken

end Inv

end StopRace

/-- As long as the stop overtakes no answer, no answer ends the process. -/
theorem write_never_missing {config : RetryConfig} {labels : List (RaceLabel V)} {s : StopRace V}
    (admitted : Runs.Along StopRace.step (fun s label => s.Answers label ∧ s.Waits label)
      (.start config) labels)
    (reached : Runs.run StopRace.step (.start config) labels = some s) : s.crashed = false := by
  have inv : s.Inv :=
    @Runs.invariant _ _ _ _ StopRace.Inv
      (fun _ _ _ inv holds taken => inv.step holds.1 holds.2 taken) _ _ _
      (.start config) admitted reached
  exact inv.alive

namespace Sample

/-- A row is handed out and fails, and then the tracker is stopped. -/
def failsThenStops : List (RaceLabel Nat) :=
  [.call (.add (rowRequest 10 1)), .call .popRound, .test (failure 10 1 ⟨true, false⟩), .body 0,
    .stop, .stop, .test (failure 10 1 ⟨true, false⟩)]

/-- The queue is stopped between a failure's test and its treatment. -/
def stopsBetween : List (RaceLabel Nat) :=
  [.call (.add (rowRequest 10 1)), .call .popRound, .test (failure 10 1 ⟨true, false⟩), .stop,
    .stop, .body 0]

end Sample

open Sample

/-- A failure looked at in time, and one that comes too late. -/
theorem write_never_missing_in_time :
    ∃ s, Runs.run StopRace.step (.start retryConfig) failsThenStops = some s ∧
      s.tracker.trackingQueue.stopped = true ∧ s.crashed = false := by
  obtain ⟨s, reached, stopped⟩ : ∃ s, Runs.run StopRace.step (.start retryConfig)
      failsThenStops = some s ∧ s.tracker.trackingQueue.stopped = true := ⟨_, rfl, rfl⟩
  have answers : ∀ s : StopRace Nat, (∃ write ∈ s.popped, write.lsn = 10) →
      s.Answers (.test (failure 10 1 ⟨true, false⟩)) := by
    intro s handed entry listed
    obtain rfl := mem_singleton.mp listed
    exact ⟨by decide, handed⟩
  refine ⟨s, reached, stopped, write_never_missing ?_ reached⟩
  exact .cons ⟨trivial, trivial⟩ rfl <| .cons ⟨trivial, trivial⟩ rfl <|
    .cons ⟨answers _ ⟨_, mem_cons_self, rfl⟩, trivial⟩ rfl <|
    .cons ⟨trivial, trivial⟩ rfl <| .cons ⟨trivial, nofun⟩ rfl <|
    .cons ⟨trivial, fun _ _ none => by cases none⟩ rfl <|
    .last ⟨answers _ ⟨_, mem_cons_self, rfl⟩, trivial⟩

/-- The write is tracked and not acknowledged, but it is no longer found. -/
theorem write_missing_after_stop :
    ∃ s, Runs.Along StopRace.step StopRace.Answers (.start retryConfig)
        stopsBetween ∧
      Runs.run StopRace.step (.start retryConfig) stopsBetween = some s ∧
      s.crashed = true := by
  refine ⟨_, ?_, rfl, rfl⟩
  refine .cons trivial rfl <| .cons trivial rfl <| .cons (fun entry listed => ?_) rfl <|
    .cons trivial rfl <| .cons trivial rfl <| .last trivial
  obtain rfl := mem_singleton.mp listed
  exact ⟨by decide, rowRequest 10 1, mem_cons_self, rfl⟩

end PgWalk
