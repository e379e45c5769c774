import PgWalk.Snapshot.Reporter

/-! What is reported before the reporter is closed is delivered, once and in order. -/

namespace PgWalk

open List Reporter

namespace Reporter

/-- What always holds while nobody reports the kind that closes. -/
structure Inv (s : State) : Prop where
  line : s.line = beforeClose s.acquired ++ stopAfter s.closed
  running : s.queue.stopped = false
  closed : s.closed = true → .close ∈ s.acquired
  -- The first call that closes holds the lock until the flag is set.
  first : .close ∈ s.acquired → s.closed = true ∨ ∃ caller, s.mu = some (caller, .locked .close)
  held : ∀ caller call, s.mu = some (caller, .locked call) → call ∈ s.acquired
  calling : ∀ caller progress, s.calls caller = some (.report progress) → progress.kind ≠ stopKind
  ordinary : ∀ progress, .report progress ∈ s.acquired → progress.kind ≠ stopKind
  yielded : ∀ progress ∈ s.received ++ s.ch, progress.kind ≠ stopKind
  sending : ∀ progress, s.dispatcher = .sending progress → progress.kind ≠ stopKind
  asleep : s.dispatcher = .waiting → s.queue.items = []
  closes : s.closes = if s.dispatcher = .returned then 1 else 0
  ended : s.ended = true → s.dispatcher = .returned ∧ s.ch = []

/-- An element not in the first part of a list is the second part. -/
theorem eq_of_append_cons {α : Type} {before after first second : List α} {element : α}
    (same : before ++ element :: after = first ++ second) (short : second.length ≤ 1)
    (other : element ∉ first) : before = first ∧ after = [] ∧ second = [element] := by
  -- The element would be the first one missing in the first part.
  rcases append_eq_append_iff.mp same with ⟨middle, rfl, tail⟩ | ⟨middle, rfl, tail⟩
  · cases middle with
    | nil =>
      obtain rfl : second = element :: after := tail.symm
      have none : after = [] := by simpa using short
      exact ⟨(append_nil _).symm, none, by rw [none]⟩
    | cons head rest =>
      obtain ⟨rfl, -⟩ := List.cons.inj tail
      exact absurd (mem_append_right _ mem_cons_self) other
  · rw [tail] at short ⊢
    simp only [length_append, length_cons] at short
    have none : middle = [] := length_eq_zero_iff.mp (by omega)
    have rest : after = [] := length_eq_zero_iff.mp (by omega)
    rw [none, rest]
    exact ⟨append_nil _, rfl, rfl⟩

namespace Inv

variable {s next : State}

variable {progress : Progress}

theorem counted (inv : Inv s) (member : progress ∈ beforeClose s.acquired) :
    progress.kind ≠ stopKind :=
  inv.ordinary progress (mem_of_mem_beforeClose member)

/-- The stop report is the last one. -/
theorem stop_last (inv : Inv s) {before after : List Progress}
    (line : s.line = before ++ progress :: after) (stop : progress.kind = stopKind) :
    before = beforeClose s.acquired ∧ after = [] ∧ progress = stopReport ∧ s.closed = true := by
  have other : progress ∉ beforeClose s.acquired := fun member => inv.counted member stop
  have short : (stopAfter s.closed).length ≤ 1 := by
    unfold stopAfter
    split
    · exact Nat.le_refl 1
    · exact Nat.zero_le 1
  obtain ⟨all, none, only⟩ := eq_of_append_cons (line.symm.trans inv.line) short other
  refine ⟨all, none, ?_⟩
  unfold stopAfter at only
  cases closed : s.closed with
  | true =>
    rw [closed, if_pos rfl] at only
    exact ⟨(singleton_inj.mp only).symm, rfl⟩
  | false =>
    rw [closed, if_neg Bool.false_ne_true] at only
    cases only

theorem start : Inv start where
  line := rfl
  running := rfl
  closed := by simp [Reporter.start]
  first := by simp [Reporter.start]
  held := by simp [Reporter.start]
  calling := by simp [Reporter.start]
  ordinary := by simp [Reporter.start]
  yielded := by simp [Reporter.start]
  sending := by simp [Reporter.start]
  asleep _ := rfl
  closes := rfl
  ended := by simp [Reporter.start]

end Inv

/-- No goroutine reports the kind that closes the reporter. -/
def Ordinary : Label → Prop
  | .enter _ (.report progress) => progress.kind ≠ stopKind
  | _ => True

instance : DecidablePred Ordinary
  | .enter _ (.report progress) => inferInstanceAs (Decidable (progress.kind ≠ stopKind))
  | .enter _ .close => isTrue trivial
  | .lock _ | .check | .push | .unlock | .pop | .send | .handOff | .close | .receive | .finish =>
    isTrue trivial

variable {queue : WriteQueue Progress}

theorem pop_eq_some {rest : WriteQueue Progress} {progress : Progress}
    (popped : queue.pop Progress.size = some (progress, rest)) :
    queue.items = progress :: rest.items ∧ rest.stopped = queue.stopped := by
  unfold WriteQueue.pop at popped
  split at popped
  · cases popped
  · split at popped
    · cases popped
    · rename_i items
      cases popped
      exact ⟨items, rfl⟩

theorem pop_eq_none (running : queue.stopped = false) (none : queue.pop Progress.size = none) :
    queue.items = [] := by
  unfold WriteQueue.pop at none
  rw [running, if_neg Bool.false_ne_true] at none
  split at none
  · assumption
  · cases none

namespace Inv

variable {s : State}

theorem closed_iff (inv : Inv s) (other : ∀ caller, s.mu ≠ some (caller, .locked .close)) :
    s.closed = true ↔ .close ∈ s.acquired := by
  refine ⟨inv.closed, fun member => ?_⟩
  rcases inv.first member with closed | ⟨caller, held⟩
  · exact closed
  · exact absurd held (other caller)

variable {caller : Nat} {progress : Progress} {call : Call}

section

variable (inv : Inv s)

include inv

theorem enter (caller : Nat) (ordinary : Ordinary (.enter caller call)) :
    Inv { s with calls := Function.update s.calls caller (some call) } :=
  { inv with
    calling := by
      intro other progress calling
      by_cases same : other = caller
      · subst same
        obtain rfl : call = .report progress := by simpa using calling
        exact ordinary
      · exact inv.calling other progress (by simpa [same] using calling) }

/-- Taking the lock keeps the invariant. -/
theorem lock (free : s.mu = none) (calling : s.calls caller = some call) : Inv { s with
      mu := some (caller, .locked call)
      calls := Function.update s.calls caller none
      acquired := s.acquired ++ [call] } := by
  -- What counts grows by what is going to be pushed.
  have nobody : ∀ other, s.mu ≠ some (other, .locked .close) := by simp [free]
  have flag := inv.closed_iff nobody
  have line := inv.line
  unfold State.line at line
  rw [free, pending_free, append_nil] at line
  refine { inv with
    line := ?_, closed := ?_, first := ?_, held := ?_, calling := ?_, ordinary := ?_ }
  · unfold State.line
    rw [line]
    cases closed : s.closed with
    | true =>
      rw [beforeClose_closed (flag.mp closed)]
      cases call with
      | report progress => simp [pending]
      | close => simp [pending]
    | false =>
      have still : .close ∉ s.acquired := fun member => by
        rw [flag.mpr member] at closed
        cases closed
      rw [beforeClose_open still]
      cases call with
      | report progress | close => simp [pending, stopAfter, beforeClose]
  · exact fun closed => mem_append_left _ (inv.closed closed)
  · intro member
    rcases mem_append.mp member with before | now
    · exact .inl (flag.mpr before)
    · obtain rfl := mem_singleton.mp now
      exact .inr ⟨caller, rfl⟩
  · intro other held same
    cases same
    exact mem_append_right _ (mem_singleton.mpr rfl)
  · intro other progress now
    by_cases same : other = caller
    · simp [same] at now
    · exact inv.calling other progress (by simpa [same] using now)
  · intro progress member
    rcases mem_append.mp member with before | now
    · exact inv.ordinary progress before
    · obtain rfl := mem_singleton.mp now
      exact inv.calling caller progress calling

/-- Checking the flag keeps the invariant. -/
theorem check (held : s.mu = some (caller, .locked call)) : Inv { s with
      closed := (check s.closed call).1
      mu := some (caller, (check s.closed call).2) } := by
  -- Under the lock the flag stays, so a push is certain or dropped.
  have line := inv.line
  unfold State.line at line
  have unlocked : ∀ other found, some (caller, (Reporter.check s.closed call).2) =
      some (other, Inside.locked found) → found ∈ s.acquired := by
    intro other found same
    cases call <;> cases closed : s.closed <;> simp [Reporter.check, closed] at same
  cases call with
  | report progress =>
    have flag := inv.closed_iff (by simp [held])
    refine { inv with line := ?_, first := ?_, held := unlocked }
    · unfold State.line
      dsimp only [check]
      rw [held] at line
      cases closed : s.closed with
      | true | false => simpa [pending, closed] using line
    · exact fun member => .inl (flag.mpr member)
  | close =>
    refine { inv with line := ?_, first := fun _ => .inl rfl, closed := ?_, held := unlocked }
    · unfold State.line
      dsimp only [check]
      rw [held, pending_close, append_nil] at line
      rw [line]
      -- The first closing call has the last report; later ones nothing.
      cases closed : s.closed with
      | true => simp [pending]
      | false => simp [pending, stopAfter]
    · exact fun _ => inv.held caller .close held

/-- The goroutine with the lock pushes, which wakes the dispatcher. -/
theorem push (held : s.mu = some (caller, .pushing progress)) : Inv { s with
      queue := s.queue.push Progress.size progress
      dispatcher := s.dispatcher.signal
      mu := some (caller, .unlocking) } := by
  have flag := inv.closed_iff (by simp [held])
  have line := inv.line
  have carries : s.dispatcher.signal.carries = s.dispatcher.carries := by
    cases s.dispatcher <;> rfl
  have returned : s.dispatcher.signal = .returned ↔ s.dispatcher = .returned := by
    cases s.dispatcher <;> simp [Dispatcher.signal]
  refine { inv with
    line := ?_, first := ?_, held := ?_, sending := ?_, asleep := ?_, closes := ?_, ended := ?_ }
  · unfold State.line at line ⊢
    rw [held] at line
    rw [carries]
    simpa [pending, WriteQueue.push] using line
  · exact fun member => .inl (flag.mpr member)
  · intro other call same
    cases same
  · intro other at_
    refine inv.sending other ?_
    cases dispatcher : s.dispatcher <;> simp_all [Dispatcher.signal]
  · -- Whoever slept has been woken.
    intro waiting
    cases dispatcher : s.dispatcher <;> simp [dispatcher, Dispatcher.signal] at waiting
  · rw [inv.closes]
    simp [returned]
  · exact fun ended => ⟨returned.mpr (inv.ended ended).1, (inv.ended ended).2⟩

theorem unlock (held : s.mu = some (caller, .unlocking)) : Inv { s with mu := none } := by
  have flag := inv.closed_iff (by simp [held])
  refine { inv with line := ?_, first := ?_, held := ?_ }
  · have line := inv.line
    unfold State.line at line ⊢
    rw [held] at line
    exact line
  · exact fun member => .inl (flag.mpr member)
  · intro other call same
    cases same

theorem before_return (other : s.dispatcher ≠ .returned) : s.closes = 0 ∧ ¬ s.ended = true :=
  ⟨inv.closes.trans (if_neg other), fun ended => other (inv.ended ended).1⟩

theorem sleep (popping : s.dispatcher = .popping) (empty : s.queue.pop Progress.size = none) :
    Inv { s with dispatcher := .waiting } := by
  obtain ⟨open_, reading⟩ := inv.before_return (by simp [popping])
  have line := inv.line
  unfold State.line at line
  rw [popping] at line
  refine { inv with line := line, sending := ?_, asleep := ?_, closes := open_, ended := ?_ }
  · intro progress impossible
    cases impossible
  · exact fun _ => pop_eq_none inv.running empty
  · exact fun ended => absurd ended reading

/-- The dispatcher takes a report, and ends at the closing one. -/
theorem pop {queue : WriteQueue Progress} (popping : s.dispatcher = .popping)
    (popped : s.queue.pop Progress.size = some (progress, queue)) : Inv { s with
      queue := queue
      dispatcher := if progress.kind = stopKind then .returning else .sending progress } := by
  obtain ⟨open_, reading⟩ := inv.before_return (by simp [popping])
  obtain ⟨items, stopped⟩ := pop_eq_some popped
  have line : s.line =
      (s.received ++ s.ch) ++ progress :: (queue.items ++ pending s.closed s.mu) := by
    unfold State.line
    rw [popping, items]
    simp [Dispatcher.carries]
  by_cases stop : progress.kind = stopKind
  · -- The report that closes the reporter is the last one.
    obtain ⟨-, -, last, -⟩ := inv.stop_last line stop
    rw [if_pos stop]
    refine { inv with
      line := ?_, running := stopped.trans inv.running, sending := ?_, asleep := ?_,
      closes := open_, ended := fun ended => absurd ended reading }
    · rw [← inv.line, line, last]
      simp [State.line, Dispatcher.carries]
    · intro other impossible
      cases impossible
    · intro impossible
      cases impossible
  · rw [if_neg stop]
    refine { inv with
      line := ?_, running := stopped.trans inv.running, sending := ?_, asleep := ?_,
      closes := open_, ended := fun ended => absurd ended reading }
    · rw [← inv.line, line]
      simp [State.line, Dispatcher.carries]
    · intro other same
      cases same
      exact stop
    · intro impossible
      cases impossible

/-- Sending a report keeps the invariant. -/
theorem send (sending : s.dispatcher = .sending progress) :
    Inv { s with ch := s.ch ++ [progress], dispatcher := .popping } := by
  obtain ⟨open_, reading⟩ := inv.before_return (by simp [sending])
  have line := inv.line
  unfold State.line at line
  rw [sending] at line
  refine { inv with
    line := ?_, yielded := ?_, sending := ?_, asleep := ?_, closes := open_, ended := ?_ }
  · unfold State.line
    simpa [Dispatcher.carries] using line
  · intro other member
    rw [← append_assoc] at member
    rcases mem_append.mp member with before | now
    · exact inv.yielded other before
    · obtain rfl := mem_singleton.mp now
      exact inv.sending other sending
  · intro other impossible
    cases impossible
  · intro impossible
    cases impossible
  · exact fun ended => absurd ended reading

/-- Receiving a report keeps the invariant. -/
theorem receive {rest : List Progress} (buffer : s.ch = progress :: rest) :
    Inv { s with received := s.received ++ [progress], ch := rest } := by
  have same : s.received ++ [progress] ++ rest = s.received ++ s.ch := by
    rw [buffer, append_assoc]
    rfl
  refine { inv with line := ?_, yielded := ?_, ended := ?_ }
  · have line := inv.line
    unfold State.line at line ⊢
    rw [same]
    exact line
  · dsimp only
    rw [same]
    exact inv.yielded
  · -- A reader that has seen the end has found the buffer empty.
    intro ended
    have empty := (inv.ended ended).2
    rw [buffer] at empty
    cases empty

theorem close (returning : s.dispatcher = .returning) :
    Inv { s with closes := s.closes + 1, dispatcher := .returned } := by
  obtain ⟨open_, reading⟩ := inv.before_return (by simp [returning])
  have line := inv.line
  unfold State.line at line
  rw [returning] at line
  refine { inv with line := line, sending := ?_, asleep := ?_, closes := ?_, ended := ?_ }
  · intro other impossible
    cases impossible
  · intro impossible
    cases impossible
  · exact congrArg Nat.succ open_
  · exact fun ended => absurd ended reading

/-- Every ordinary step keeps the invariant. -/
theorem step {bufferSize : Nat} {next : State} {label : Label} (ordinary : Ordinary label)
    (taken : step bufferSize s label = some next) : Inv next := by
  -- A report may go through the buffer without staying there.
  cases stepped taken with
  | enter caller call => exact inv.enter caller ordinary
  | lock caller call free calling => exact inv.lock free calling
  | check caller call held => exact inv.check held
  | push caller progress held => exact inv.push held
  | unlock caller held => exact inv.unlock held
  | sleep popping empty => exact inv.sleep popping empty
  | pop progress queue popping popped => exact inv.pop popping popped
  | send progress sending => exact inv.send sending
  | handOff progress sending empty =>
    have buffer : s.ch ++ [progress] = progress :: [] := by
      rw [empty]
      rfl
    have received := (inv.send sending).receive buffer
    exact (congrArg (fun ch => Inv { s with
      received := s.received ++ [progress], ch := ch, dispatcher := .popping }) empty).mpr received
  | close returning => exact inv.close returning
  | receive progress rest buffer => exact inv.receive buffer
  | finish closed empty =>
    refine { inv with ended := fun _ => ⟨?_, empty⟩ }
    by_contra other
    have open_ := (inv.before_return other).1
    omega

end

end Inv

/-- The steps that bring reports, and the end of them, to the reader. -/
def Label.delivers : Label → Bool
  | .push | .pop | .send | .handOff | .close | .receive | .finish => true
  | .enter _ _ | .lock _ | .check | .unlock => false

/-- What the dispatcher still has to do for the report it has taken. -/
def Dispatcher.left : Dispatcher → Nat
  | .popping => 1
  | .waiting => 0
  | .sending _ => 3
  | .returning => 2
  | .returned => 0

/-- A bound on the steps to the reader, once the reporter is closed. -/
def State.remaining (s : State) : Nat :=
  -- A report is pushed, popped, sent and received, and the dispatcher may fall asleep in between.
  6 * (pending s.closed s.mu).length + 4 * s.queue.items.length + s.dispatcher.left + s.ch.length +
    if s.ended then 0 else 1

/-- The reader has got everything and knows that nothing follows. -/
def State.Delivered (s : State) : Prop :=
  s.dispatcher = .returned ∧ s.ch = [] ∧ s.ended = true

variable {s : State}

/-- A closed reporter stays so; delivering leaves less to do. -/
theorem remaining_step {bufferSize : Nat} {next : State} {label : Label}
    (closed : s.closed = true) (taken : step bufferSize s label = some next) : next.closed = true ∧
      next.remaining + (if label.delivers then 1 else 0) ≤ s.remaining := by
  -- A push may wake the dispatcher, which looks once more.
  unfold State.remaining
  cases stepped taken with
  | enter caller call => exact ⟨closed, Nat.le_refl _⟩
  | lock caller call free =>
    refine ⟨closed, ?_⟩
    cases call <;> simp [pending, closed, Label.delivers]
  | check caller call held =>
    cases call <;> simp [check, pending, closed, Label.delivers]
  | push caller progress held =>
    refine ⟨closed, ?_⟩
    have woken : s.dispatcher.signal.left ≤ s.dispatcher.left + 1 := by
      cases s.dispatcher <;> simp [Dispatcher.signal, Dispatcher.left]
    simp only [held, pending, WriteQueue.push, Label.delivers, length_append,
      length_singleton, length_nil, if_true]
    omega
  | unlock caller held =>
    refine ⟨closed, ?_⟩
    simp [Label.delivers]
  | sleep popping =>
    refine ⟨closed, ?_⟩
    simp only [popping, Dispatcher.left, Label.delivers, if_true]
    omega
  | pop progress queue popping popped =>
    refine ⟨closed, ?_⟩
    have taken : (if progress.kind = stopKind then Dispatcher.returning
        else .sending progress).left ≤ 3 := by
      split
      · exact Nat.le_succ 2
      · exact Nat.le_refl 3
    simp only [(pop_eq_some popped).1, Label.delivers, length_cons, if_true]
    omega
  | send progress sending =>
    refine ⟨closed, ?_⟩
    simp only [sending, Dispatcher.left, Label.delivers, length_append, length_singleton, if_true]
    omega
  | handOff progress sending =>
    refine ⟨closed, ?_⟩
    simp only [sending, Dispatcher.left, Label.delivers, if_true]
    omega
  | close returning =>
    refine ⟨closed, ?_⟩
    simp only [returning, Dispatcher.left, Label.delivers, if_true]
    omega
  | receive progress rest buffer =>
    refine ⟨closed, ?_⟩
    simp only [buffer, Label.delivers, length_cons, if_true]
    omega
  | finish _ _ reading =>
    refine ⟨closed, ?_⟩
    simp [reading, Label.delivers]

theorem pushing_of_pending {mu : Option (Nat × Inside)} (some_ : pending true mu ≠ []) :
    ∃ caller progress, mu = some (caller, .pushing progress) := by
  rcases mu with _ | ⟨caller, inside⟩
  · exact absurd rfl some_
  · cases inside with
    | locked call => cases call <;> exact absurd rfl some_
    | pushing progress => exact ⟨caller, progress, rfl⟩
    | unlocking => exact absurd rfl some_

/-- While something is missing, a delivering step can be taken. -/
theorem exists_delivers (bufferSize : Nat) (inv : Inv s) (closed : s.closed = true) :
    s.Delivered ∨ ∃ label, label.delivers = true ∧ (step bufferSize s label).isSome = true := by
  -- The closing report is not in the queue, so it is to be pushed.
  cases dispatcher : s.dispatcher with
  | popping =>
    refine .inr ⟨.pop, rfl, ?_⟩
    cases popped : s.queue.pop Progress.size <;> simp [step, dispatcher, popped]
  | waiting =>
    have line := inv.line
    unfold State.line at line
    rw [dispatcher, inv.asleep dispatcher, closed] at line
    have some_ : pending true s.mu ≠ [] := by
      intro none
      rw [none] at line
      have arrived : stopReport ∈ s.received ++ s.ch := by
        have last : stopReport ∈ beforeClose s.acquired ++ stopAfter true :=
          mem_append_right _ mem_cons_self
        rw [← line] at last
        simpa [Dispatcher.carries] using last
      exact inv.yielded stopReport arrived rfl
    obtain ⟨caller, progress, held⟩ := pushing_of_pending some_
    exact .inr ⟨.push, rfl, by simp [step, held]⟩
  | sending progress =>
    cases buffer : s.ch with
    | nil => exact .inr ⟨.handOff, rfl, by simp [step, dispatcher, buffer]⟩
    | cons first rest => exact .inr ⟨.receive, rfl, by simp [step, buffer]⟩
  | returning => exact .inr ⟨.close, rfl, by simp [step, dispatcher]⟩
  | returned =>
    -- The channel is closed, and the reader takes what is left in the buffer.
    cases buffer : s.ch with
    | cons first rest => exact .inr ⟨.receive, rfl, by simp [step, buffer]⟩
    | nil =>
      cases ended : s.ended with
      | true => exact .inl ⟨dispatcher, buffer, ended⟩
      | false =>
        have once : s.closes = 1 := inv.closes.trans (if_pos dispatcher)
        exact .inr ⟨.finish, rfl, by simp [step, buffer, ended, once]⟩

theorem Inv.yields (inv : Inv s) : s.received ++ s.ch <+: beforeClose s.acquired := by
  have start : s.received ++ s.ch <+: beforeClose s.acquired ++ stopAfter s.closed := by
    rw [← inv.line]
    unfold State.line
    rw [append_assoc, append_assoc]
    exact prefix_append ..
  unfold stopAfter at start
  split at start
  · rcases prefix_concat_iff.mp start with whole | part
    · -- The report that closes the reporter is never yielded.
      have arrived : stopReport ∈ s.received ++ s.ch := by
        rw [whole]
        exact mem_append_right _ mem_cons_self
      exact absurd rfl (inv.yielded stopReport arrived)
    · exact part
  · rwa [append_nil] at start

theorem Inv.returned (inv : Inv s) (returned : s.dispatcher = .returned) :
    .close ∈ s.acquired ∧ s.received ++ s.ch = beforeClose s.acquired := by
  have line : s.line =
      (s.received ++ s.ch) ++ stopReport :: (s.queue.items ++ pending s.closed s.mu) := by
    unfold State.line
    rw [returned]
    simp [Dispatcher.carries]
  obtain ⟨all, -, -, closed⟩ := inv.stop_last line rfl
  exact ⟨inv.closed closed, all⟩

/--
The channel yields the reports made before the first call that closes, once each and in the order of
the lock, and is closed after the last of them; after so many steps everything is delivered.
-/
theorem reports_delivered {bufferSize : Nat} {labels : List Label} {s : State}
    (ordinary : ∀ label ∈ labels, Ordinary label)
    (reached : Runs.run (step bufferSize) start labels = some s) :
    s.received ++ s.ch <+: beforeClose s.acquired ∧ s.closes ≤ 1 ∧
      (0 < s.closes → .close ∈ s.acquired ∧ s.received ++ s.ch = beforeClose s.acquired) ∧
      (s.Delivered → s.received = beforeClose s.acquired ∧ s.closes = 1) ∧
      (s.closed = true → ∀ more last, (∀ label ∈ more, Ordinary label) →
        Runs.run (step bufferSize) s more = some last →
        (more.filter Label.delivers).length ≤ s.remaining ∧ (last.Delivered ∨
            ∃ label, label.delivers = true ∧ (step bufferSize last label).isSome = true)) := by
  have inv : Inv s :=
    Runs.invariant (fun _ _ _ before ordinary taken => before.step ordinary taken) Inv.start
      (Runs.along_of_forall ordinary) reached
  have closes := inv.closes
  refine ⟨inv.yields, ?_, ?_, ?_, ?_⟩
  · rw [closes]
    split
    · exact Nat.le_refl 1
    · exact Nat.zero_le 1
  · intro some_
    refine inv.returned ?_
    by_contra other
    have none := (inv.before_return other).1
    omega
  · intro delivered
    obtain ⟨returned, empty, -⟩ := delivered
    have all := (inv.returned returned).2
    rw [empty, append_nil] at all
    exact ⟨all, closes.trans (if_pos returned)⟩
  · -- The flag stays set, so that every delivering step uses up what remains.
    intro closed more last ordinary reached
    have along : Runs.Along (step bufferSize) (fun _ label => Ordinary label) s more :=
      Runs.along_of_forall ordinary
    have kept : ∀ (state : State) (label : Label) (next : State),
        Inv state ∧ state.closed = true → Ordinary label →
        step bufferSize state label = some next → Inv next ∧ next.closed = true :=
      fun state label next before ordinary taken =>
        ⟨before.1.step ordinary taken, (remaining_step before.2 taken).1⟩
    have spent := Runs.spent kept
      (fun state label next before _ taken => (remaining_step before.2 taken).2)
      ⟨inv, closed⟩ along reached
    obtain ⟨lastInv, lastClosed⟩ := Runs.invariant kept ⟨inv, closed⟩ along reached
    exact ⟨by omega, exists_delivers bufferSize lastInv lastClosed⟩

namespace Sample

/-- One goroutine reports before and after another closes, unbuffered. -/
def twoCallers : List Label :=
  [.enter 0 (.report (ofReport (.taskDone "public.users"))), .enter 1 .close, .lock 0, .check, .pop,
    .push, .unlock, .lock 1, .check, .push, .pop, .handOff, .pop, .unlock,
    .enter 0 (.report (ofReport (.lsnAck 7))), .lock 0, .check, .unlock, .close, .finish]

/-- A goroutine reports the closing kind, then something else, and closes. -/
def stopReported : List Label :=
  [.enter 0 (.report stopReport), .lock 0, .check, .push, .unlock,
    .enter 0 (.report (ofReport (.lsnAck 7))), .lock 0, .check, .push, .unlock,
    .enter 0 .close, .lock 0, .check, .push, .unlock, .pop, .close, .finish]

end Sample

/-- The reader gets the report made before closing, not the later. -/
theorem reports_delivered_two : ∃ s, Runs.run (step 0) start Sample.twoCallers = some s ∧
    s.Delivered ∧ s.acquired.length = 3 ∧
    s.received = [ofReport (.taskDone "public.users")] ∧ s.closes = 1 := by
  obtain ⟨s, reached, delivered, acquired, counted⟩ : ∃ s,
      Runs.run (step 0) start Sample.twoCallers = some s ∧ s.Delivered ∧ s.acquired.length = 3 ∧
        beforeClose s.acquired = [ofReport (.taskDone "public.users")] :=
    ⟨_, rfl, ⟨rfl, rfl, rfl⟩, rfl, rfl⟩
  obtain ⟨-, -, -, all, -⟩ := reports_delivered (by decide) reached
  exact ⟨s, reached, delivered, acquired, (all delivered).1.trans counted, (all delivered).2⟩

/-- A report of the closing kind is lost with all later ones. -/
theorem stop_report_lost : ∃ s, Runs.run (step 0) start Sample.stopReported = some s ∧
    s.Delivered ∧ beforeClose s.acquired = [stopReport, ofReport (.lsnAck 7)] ∧
    s.received = [] :=
  ⟨_, rfl, ⟨rfl, rfl, rfl⟩, rfl, rfl⟩

end Reporter

end PgWalk
