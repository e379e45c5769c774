import Mathlib.Algebra.BigOperators.Ring.Finset
import PgWalk.Lib.CancelQueue
import PgWalk.Lib.Runs
import PgWalk.Tracker.Ready

/-! The two levels of the ready queue behave as one queue from which requests can be withdrawn. -/

namespace PgWalk

open List hiding beq_eq_decide

open CancelQueue Option

variable {V : Type}

namespace PGBufferedLSNTracker

variable {t next : PGBufferedLSNTracker V}

/-- The ready writes of live requests, with those requests' addresses. -/
def live (t : PGBufferedLSNTracker V) : List (Nat × WriteRequest V) :=
  (t.readyQueue.items.filter fun entry => !(t.heap entry.trackedWrite).released).map fun entry =>
    (entry.trackedWrite, entry.write)

/--
Wait for a write on a queue that has not stopped, and say of which request it is, unless the queue
is empty.
-/
def popReady : Nat → PGBufferedLSNTracker V → Option (ReadyWriteEntry V) × PGBufferedLSNTracker V
  | 0, t => (none, t)
  | rounds + 1, t =>
    match t.readyQueue.items with
    | [] => (none, t)
    | entry :: _ =>
      match t.popRound with
      | none => (none, t)
      -- The write that was queued for the element is gone.
      | some (none, taken) => popReady rounds taken
      | some (some write, taken) => (some ⟨entry.trackedWrite, write⟩, taken)

theorem live_open {pair : Nat × WriteRequest V} (ready : pair ∈ t.live) :
    (t.heap pair.1).released = false := by
  obtain ⟨entry, stored, rfl⟩ := mem_map.mp ready
  simpa using (mem_filter.mp stored).2

/-- A request's live elements are its queued writes. -/
theorem live_owner (ready : Ready t) (addr : Nat) :
    (t.live.filter fun entry => entry.1 = addr).map Prod.snd = (t.heap addr).queued := by
  -- The elements of an open request stand for its writes in order.
  cases released : (t.heap addr).released with
  | true =>
    -- Those of one given back stand for nothing.
    rw [(ready.given addr released).1]
    simp only [map_eq_nil_iff, filter_eq_nil_iff, decide_eq_true_eq]
    intro pair listed same
    have open_ := live_open listed
    rw [same, released] at open_
    cases open_
  | false =>
    rw [← ready.queued addr released, waiting, live, List.filter_map, List.filter_filter,
      List.map_map]
    refine congrArg (List.map ReadyWriteEntry.write) (List.filter_congr fun entry _ => ?_)
    by_cases same : entry.trackedWrite = addr
    · simp [same, released]
    · simp [same]

/-- As many writes are ready as are queued in all requests together. -/
theorem length_live (ready : Ready t) :
    t.live.length = ∑ addr ∈ Finset.range t.fresh, (t.heap addr).queued.length := by
  -- Every ready write is counted for its own request.
  have inside : ∀ addr ∈ ((t.live.map Prod.fst : List Nat) : Multiset Nat),
      addr ∈ Finset.range t.fresh := by
    intro addr listed
    obtain ⟨pair, member, rfl⟩ := mem_map.mp (Multiset.mem_coe.mp listed)
    obtain ⟨entry, stored, rfl⟩ := mem_map.mp member
    exact Finset.mem_range.mpr (ready.allocated entry (mem_of_mem_filter stored))
  have counted := Multiset.sum_count_eq_card inside
  rw [Multiset.coe_card, length_map] at counted
  rw [← counted]
  refine Finset.sum_congr rfl fun addr _ => ?_
  rw [← live_owner ready addr, List.length_map, Multiset.coe_count, List.count_eq_length_filter,
    List.filter_map, List.length_map]
  refine congrArg List.length (List.filter_congr fun entry _ => ?_)
  simp [beq_eq_decide]

theorem live_congr (items : next.readyQueue.items = t.readyQueue.items)
    (released : ∀ entry ∈ t.readyQueue.items,
      (next.heap entry.trackedWrite).released = (t.heap entry.trackedWrite).released) :
    next.live = t.live := by
  unfold live
  rw [items]
  refine congrArg (List.map _) (filter_congr fun entry member => ?_)
  rw [released entry member]

theorem enqueueReadyWrite_accepted {addr : Nat} {write : WriteRequest V}
    {tw : TrackedWriteRequest V} (queued : (t.heap addr).queueWrite write = some tw) :
    (t.heap addr).released = false ∧ t.enqueueReadyWrite addr write = t.enqueued addr write := by
  rcases enqueueReadyWrite_cases t addr write with ⟨same, refused⟩ | ⟨appended, open_⟩
  · -- The counter of accepted writes has moved.
    have moved : (t.enqueueReadyWrite addr write).stats.writeQueueInc =
        t.stats.writeQueueInc + 1 := by simp [enqueueReadyWrite, queued]
    rw [same] at moved
    omega
  · exact ⟨open_, appended⟩

/-- What an operation does to the ready queue, told by its events. -/
structure Moved (t next : PGBufferedLSNTracker V) (events : List (Event Nat (WriteRequest V))) :
    Prop where
  ready : Ready next
  serves : Serves t.live events next.live
  single : events.length ≤ 1
  fresh : t.fresh ≤ next.fresh
  -- A request that has been given back stays so.
  given : ∀ addr < t.fresh, (t.heap addr).released = true → (next.heap addr).released = true
  returned : ∀ addr write, .returned addr write ∈ events → (t.heap addr).released = false
  cancelled : ∀ addr, .cancelled addr ∈ events →
    addr < next.fresh ∧ (next.heap addr).released = true
  inc : next.stats.writeQueueInc = t.stats.writeQueueInc + (acceptedBy events).length
  dec : next.stats.writeQueueDec + (returnedBy events).length + next.live.length =
    t.stats.writeQueueDec + (acceptedBy events).length + t.live.length

namespace Moved

theorem silent (ready : Ready next) (items : next.readyQueue.items = t.readyQueue.items)
    (released : ∀ addr < t.fresh, (next.heap addr).released = (t.heap addr).released)
    (fresh : t.fresh ≤ next.fresh) (stats : next.stats = t.stats)
    (allocated : ∀ entry ∈ t.readyQueue.items, entry.trackedWrite < t.fresh) :
    Moved t next [] := by
  have same : next.live = t.live :=
    live_congr items fun entry member => released _ (allocated entry member)
  refine ⟨ready, same ▸ .nil _, Nat.zero_le 1, fresh, ?_, by simp, by simp, ?_, ?_⟩
  · intro addr below given
    exact (released addr below).trans given
  · rw [stats]
    rfl
  · rw [stats, same]
    rfl

theorem track (ready : Ready t) (write : WriteRequest V) :
    Moved t (t.allocate (.newTrackedWriteRequest write)) [] := by
  -- The new request stands at an address that no element of the queue has.
  have pending : (TrackedWriteRequest.newTrackedWriteRequest write).released ≠ true :=
    Bool.false_ne_true
  refine silent (ready.allocate rfl (absurd · pending)) rfl ?_ (Nat.le_succ _) rfl ready.allocated
  intro addr below
  simp [allocate, store, Function.update_of_ne (Nat.ne_of_lt below)]

theorem ack (ready : Ready t) (addr : Nat) (offsets : List Nat) :
    Moved t (t.store addr ((t.heap addr).ack offsets)) [] := by
  -- An acknowledgement never changes what is queued.
  have settled := (Acks.store (TrackedWriteRequest.Acked.ack (t.heap addr) offsets)).toSettles
  refine silent (ready.settles settled) rfl ?_ (Nat.le_refl _) rfl ready.allocated
  intro other _
  by_cases here : other = addr
  · simp [store, here, TrackedWriteRequest.ack]
  · simp [store, here]

variable {addr : Nat} {write : WriteRequest V}

theorem refused (ready : Ready t) (refused : (t.heap addr).queueWrite write = none) :
    Moved t (t.enqueueReadyWrite addr write) [] := by
  have same : t.enqueueReadyWrite addr write = t := by
    simp [enqueueReadyWrite, refused]
  rw [same]
  exact silent ready rfl (fun _ _ => rfl) (Nat.le_refl _) rfl ready.allocated

/-- A write that its request accepts is ready behind all others. -/
theorem accepted (ready : Ready t) (allocated : addr < t.fresh) {tw : TrackedWriteRequest V}
    (queued : (t.heap addr).queueWrite write = some tw) :
    Moved t (t.enqueueReadyWrite addr write) [.accepted addr write] := by
  obtain ⟨open_, appended⟩ := enqueueReadyWrite_accepted queued
  have kept : ∀ other, ((t.enqueued addr write).heap other).released = (t.heap other).released := by
    intro other
    by_cases here : other = addr
    · simp [enqueued, store, here]
    · simp [enqueued, store, here]
  have grown : (t.enqueueReadyWrite addr write).live = t.live ++ [(addr, write)] := by
    rw [appended]
    simp only [live, kept]
    simp [enqueued, WriteQueue.push, open_]
  refine ⟨ready.enqueueReadyWrite allocated write, grown ▸ .accepted _ _ (.nil _), Nat.le_refl 1,
    ?_, ?_, by simp, by simp, ?_, ?_⟩
  · rw [appended]
    exact Nat.le_refl _
  · intro other _ given
    rw [appended, kept]
    exact given
  · rw [appended]
    rfl
  · rw [grown, appended, length_append]
    simp only [acceptedBy, returnedBy, filterMap_cons, filterMap_nil, Event.accepts,
      Event.returns, enqueued, store, length_cons, length_nil]
    omega

/-- What is ready of a request goes when it is given back, and is counted. -/
theorem release (ready : Ready t) (allocated : addr < t.fresh) :
    Moved t (t.release addr) [.cancelled addr] := by
  -- The counter moves by the writes queued in the request.
  have others : ∀ other, ((t.release addr).heap other).released =
      ((t.heap other).released || decide (other = addr)) := by
    intro other
    by_cases here : other = addr
    · subst here
      cases released : (t.heap other).released with
      | true
      | false => simp [PGBufferedLSNTracker.release, TrackedWriteRequest.release, store, released]
    · simp [PGBufferedLSNTracker.release, store, here]
  have left : (t.release addr).live = t.live.filter fun entry => entry.1 ≠ addr := by
    simp only [live, others, List.filter_map, List.filter_filter]
    refine congrArg (List.map _) (List.filter_congr fun entry _ => ?_)
    simp [Bool.and_comm]
  have counted : (t.release addr).stats.writeQueueDec =
      t.stats.writeQueueDec + (t.heap addr).queued.length := by
    cases released : (t.heap addr).released with
    | true =>
      simp [PGBufferedLSNTracker.release, TrackedWriteRequest.release, released,
        (ready.given addr released).1]
    | false => simp [PGBufferedLSNTracker.release, TrackedWriteRequest.release, released]
  have split := length_eq_length_filter_add (l := t.live) fun entry => entry.1 = addr
  have own := congrArg List.length (live_owner ready addr)
  refine ⟨ready.settles (Acks.release t addr).toSettles, left ▸ .cancelled _ (.nil _),
    Nat.le_refl 1, Nat.le_refl _, ?_, by simp, ?_, rfl, ?_⟩
  · intro other _ given
    simp [others, given]
  · intro other member
    obtain rfl : other = addr := by simpa using member
    exact ⟨allocated, by simp only [others, decide_true, Bool.or_true]⟩
  · rw [left, counted]
    simp only [length_map, ne_eq, decide_not, acceptedBy, returnedBy, filterMap_cons,
      filterMap_nil, Event.accepts, Event.returns, length_nil] at own split ⊢
    omega

end Moved

/-- What waiting for a write leaves alone. -/
structure Waited (t next : PGBufferedLSNTracker V) : Prop where
  ready : Ready next
  fresh : next.fresh = t.fresh
  stats : next.stats = t.stats
  released : ∀ addr, (next.heap addr).released = (t.heap addr).released

namespace Waited

theorem trans {mid : PGBufferedLSNTracker V} (first : Waited t mid) (second : Waited mid next) :
    Waited t next :=
  ⟨second.ready, second.fresh.trans first.fresh, second.stats.trans first.stats,
    fun addr => (second.released addr).trans (first.released addr)⟩

theorem round (ready : Ready t) {entry : ReadyWriteEntry V} {write : Option (WriteRequest V)}
    (taken : t.popRound = some (write, next)) (popped : Popped t next entry write) :
    Waited t next := by
  refine ⟨ready.popped popped, popped.fresh, ?_, ?_⟩
  · obtain ⟨queue, ⟨-, rfl⟩ | ⟨_, _, _, -, -, rfl⟩⟩ := popRound_eq_some taken
    · rfl
    · rfl
  · intro addr
    rcases popped.outcome with ⟨-, -, heap⟩ | ⟨-, -, heap⟩
    · rw [heap]
    · -- The write has left its request, which stays as open as it was.
      rw [heap]
      by_cases here : addr = entry.trackedWrite
      · simp [here]
      · simp [here]

end Waited

theorem Popped.live_eq {entry : ReadyWriteEntry V} {write : Option (WriteRequest V)}
    (popped : Popped t next entry write) (waited : Waited t next) :
    t.live = (write.map fun write => (entry.trackedWrite, write)).toList ++ next.live := by
  -- An element yields no write exactly when its request is back.
  simp only [live, popped.items, waited.released, filter_cons]
  rcases popped.outcome with ⟨released, none, -⟩ | ⟨released, some, -⟩
  · simp [released, none]
  · simp [released, some]

theorem Ready.popRound_ne_none (ready : Ready t) {first : ReadyWriteEntry V}
    {rest : List (ReadyWriteEntry V)} (items : t.readyQueue.items = first :: rest) :
    t.popRound ≠ none := by
  simp only [popRound, WriteQueue.pop, ready.serving, items, Bool.false_eq_true, if_false]
  split
  · exact some_ne_none _
  · exact some_ne_none _

/-- Waiting ends with the first ready write, if any is ready. -/
theorem popReady_spec {rounds : Nat} (ready : Ready t)
    (enough : t.readyQueue.items.length ≤ rounds) :
    Waited t (popReady rounds t).2 ∧
      t.live = ((popReady rounds t).1.map fun entry => (entry.trackedWrite, entry.write)).toList ++
        (popReady rounds t).2.live ∧
      ((popReady rounds t).1 = none → (popReady rounds t).2.readyQueue.items = []) := by
  -- The queue gets shorter with every round.
  induction rounds generalizing t with
  | zero =>
    have empty : t.readyQueue.items = [] := length_eq_zero_iff.mp (Nat.le_zero.mp enough)
    exact ⟨⟨ready, rfl, rfl, fun _ => rfl⟩, rfl, fun _ => empty⟩
  | succ rounds ih =>
    simp only [popReady]
    cases items : t.readyQueue.items with
    | nil => exact ⟨⟨ready, rfl, rfl, fun _ => rfl⟩, rfl, fun _ => items⟩
    | cons first rest =>
      cases taken : t.popRound with
      | none => exact absurd taken (ready.popRound_ne_none items)
      | some result =>
        obtain ⟨write, next⟩ := result
        obtain ⟨entry, popped⟩ := ready.popRound_cases taken
        have waited := Waited.round ready taken popped
        have split := popped.live_eq waited
        obtain ⟨rfl, rfl⟩ : entry = first ∧ next.readyQueue.items = rest := by
          simpa [items, eq_comm] using popped.items
        cases write with
        | none =>
          rw [items, length_cons] at enough
          obtain ⟨later, content, drained⟩ := ih waited.ready (Nat.le_of_succ_le_succ enough)
          exact ⟨waited.trans later, split.trans content, drained⟩
        | some write => exact ⟨waited, split, fun none => absurd none (some_ne_none _)⟩

/-- Waiting returns the first ready write, or goes on without one. -/
theorem Moved.pop (ready : Ready t) :
    Moved t (popReady t.readyQueue.items.length t).2
      [(popReady t.readyQueue.items.length t).1.elim .waited fun entry =>
        .returned entry.trackedWrite entry.write] := by
  -- All elements were looked at, and none stood for a write.
  obtain ⟨waited, content, drained⟩ := popReady_spec ready (Nat.le_refl _)
  generalize popReady t.readyQueue.items.length t = outcome at waited content drained
  obtain ⟨found, next⟩ := outcome
  have given : ∀ addr < t.fresh, (t.heap addr).released = true → (next.heap addr).released = true :=
    fun addr _ given => (waited.released addr).trans given
  cases found with
  | none =>
    have same : t.live = next.live := content
    have empty : next.readyQueue.items = [] := drained rfl
    have nothing : next.live = [] := by
      unfold live
      rw [empty]
      rfl
    refine ⟨waited.ready, ?_, Nat.le_refl 1, waited.fresh.ge, given, by simp, by simp, ?_, ?_⟩
    · rw [same, nothing]
      exact .waited (.nil _)
    · exact congrArg LSNTrackerStats.writeQueueInc waited.stats
    · rw [same, waited.stats]
      rfl
  | some entry =>
    have first : t.live = (entry.trackedWrite, entry.write) :: next.live := content
    refine ⟨waited.ready, first ▸ .returned _ _ (.nil _), Nat.le_refl 1, waited.fresh.ge, given,
      ?_, by simp, ?_, ?_⟩
    · intro addr write member
      obtain ⟨rfl, rfl⟩ : addr = entry.trackedWrite ∧ write = entry.write := by
        simpa using member
      exact live_open (first ▸ mem_cons_self)
    · exact congrArg LSNTrackerStats.writeQueueInc waited.stats
    · rw [first, waited.stats]
      simp only [acceptedBy, returnedBy, filterMap_cons, filterMap_nil, Event.accepts,
        Event.returns, elim_some, length_cons, length_nil]
      omega

end PGBufferedLSNTracker

open PGBufferedLSNTracker

/-- A tracker together with what has been seen of its ready queue. -/
structure ReadyRun (V : Type) where
  tracker : PGBufferedLSNTracker V
  trace : List (Event Nat (WriteRequest V))

/-- What happens to the ready queue and to the requests behind it. -/
inductive ReadyOp (V : Type)
  | track (write : WriteRequest V)
  | ack (addr : Nat) (offsets : List Nat)
  | enqueueReadyWrite (addr : Nat) (write : WriteRequest V)
  | pop
  | release (addr : Nat)

/-- One operation, on a request that exists. -/
def readyStep (s : ReadyRun V) : ReadyOp V → Option (ReadyRun V)
  | .track write => some ⟨s.tracker.allocate (.newTrackedWriteRequest write), s.trace⟩
  | .ack addr offsets =>
    if addr < s.tracker.fresh then
      some ⟨s.tracker.store addr ((s.tracker.heap addr).ack offsets), s.trace⟩
    else none
  | .enqueueReadyWrite addr write =>
    if addr < s.tracker.fresh then
      let accepted := ((s.tracker.heap addr).queueWrite write).isSome
      some ⟨s.tracker.enqueueReadyWrite addr write,
        s.trace ++ if accepted then [.accepted addr write] else []⟩
    else none
  | .pop =>
    let outcome := popReady s.tracker.readyQueue.items.length s.tracker
    some ⟨outcome.2, s.trace ++ [outcome.1.elim .waited fun entry =>
      .returned entry.trackedWrite entry.write]⟩
  | .release addr =>
    if addr < s.tracker.fresh then
      some ⟨s.tracker.release addr, s.trace ++ [.cancelled addr]⟩
    else none

namespace ReadyRun

def start (config : RetryConfig) : ReadyRun V := ⟨newLSNTracker config, []⟩

/-- An operation moves writes as its events say. -/
theorem moved {s next : ReadyRun V} {op : ReadyOp V} (ready : Ready s.tracker)
    (taken : readyStep s op = some next) :
    ∃ events, next.trace = s.trace ++ events ∧ Moved s.tracker next.tracker events := by
  -- The request decides whether the write is seen at all.
  cases op with
  | track write =>
    cases taken
    exact ⟨[], (append_nil _).symm, .track ready write⟩
  | ack addr offsets =>
    obtain ⟨-, rfl⟩ : addr < s.tracker.fresh ∧ _ = next := by
      simpa [readyStep] using taken
    exact ⟨[], (append_nil _).symm, .ack ready addr offsets⟩
  | enqueueReadyWrite addr write =>
    obtain ⟨allocated, rfl⟩ : addr < s.tracker.fresh ∧ _ = next := by
      simpa [readyStep] using taken
    refine ⟨_, rfl, ?_⟩
    cases queued : (s.tracker.heap addr).queueWrite write with
    | none => exact .refused ready queued
    | some tw => exact .accepted ready allocated queued
  | pop =>
    cases taken
    exact ⟨_, rfl, .pop ready⟩
  | release addr =>
    obtain ⟨allocated, rfl⟩ : addr < s.tracker.fresh ∧ _ = next := by
      simpa [readyStep] using taken
    exact ⟨_, rfl, .release ready allocated⟩

/-- What was seen of the ready queue so far explains what is in it. -/
structure Explained (s : ReadyRun V) : Prop where
  ready : Ready s.tracker
  serves : Serves [] s.trace s.tracker.live
  given : ∀ addr, .cancelled addr ∈ s.trace →
    addr < s.tracker.fresh ∧ (s.tracker.heap addr).released = true
  inOrder : s.trace.Pairwise fun first second => ¬ first.Overtakes second
  inc : s.tracker.stats.writeQueueInc = (acceptedBy s.trace).length
  dec : s.tracker.stats.writeQueueDec + (returnedBy s.trace).length + s.tracker.live.length =
    (acceptedBy s.trace).length

namespace Explained

theorem start (config : RetryConfig) : Explained (ReadyRun.start config : ReadyRun V) where
  ready := .start config
  serves := .nil _
  given := by simp [ReadyRun.start]
  inOrder := .nil
  inc := rfl
  dec := rfl

/-- Every operation keeps the trace explained. -/
theorem step {s next : ReadyRun V} {op : ReadyOp V} (explained : Explained s)
    (taken : readyStep s op = some next) : Explained next := by
  -- One operation shows one event at most.
  obtain ⟨events, grown, moved⟩ := s.moved explained.ready taken
  refine ⟨moved.ready, grown ▸ explained.serves.trans moved.serves, ?_, ?_, ?_, ?_⟩
  · intro addr listed
    rw [grown, mem_append] at listed
    rcases listed with earlier | now
    · obtain ⟨allocated, released⟩ := explained.given addr earlier
      exact ⟨allocated.trans_le moved.fresh, moved.given addr allocated released⟩
    · exact moved.cancelled addr now
  · rw [grown, pairwise_append]
    have few : events.Pairwise fun first second => ¬ first.Overtakes second := by
      rw [pairwise_iff_getElem]
      have single := moved.single
      omega
    refine ⟨explained.inOrder, few, ?_⟩
    intro first earlier second now overtakes
    cases first with
    | cancelled owner =>
      cases second with
      | returned other write =>
        obtain rfl : owner = other := overtakes
        have open_ := moved.returned owner write now
        rw [(explained.given owner earlier).2] at open_
        cases open_
      | _ => exact overtakes
    | _ => exact overtakes
  · rw [moved.inc, explained.inc, grown, acceptedBy, acceptedBy, acceptedBy, filterMap_append,
      length_append]
  · have before := explained.dec
    have change := moved.dec
    simp only [grown, acceptedBy, returnedBy, filterMap_append, length_append]
      at before change ⊢
    omega

end Explained

/-- A write's counts in, less its counts out and its returns. -/
def balance (s : ReadyRun V) : Int :=
  s.tracker.stats.writeQueueInc - s.tracker.stats.writeQueueDec - (returnedBy s.trace).length

end ReadyRun

/--
The ready queue is one queue in order of arrival from which requests can be withdrawn: what waiting
returns and what is still ready are accepted writes in their order, all of those not given back; and
the counters tell how many are queued.
-/
theorem readyQueue_fifo (config : RetryConfig) {ops : List (ReadyOp V)} {last : ReadyRun V}
    (reached : Runs.run readyStep (.start config) ops = some last) :
    Serves [] last.trace last.tracker.live ∧
      (returnedBy last.trace ++ last.tracker.live).Sublist (acceptedBy last.trace) ∧
      (∀ addr, (∀ event ∈ last.trace, event ≠ .cancelled addr) →
        ((returnedBy last.trace ++ last.tracker.live).filter fun entry => entry.1 = addr) =
          (acceptedBy last.trace).filter fun entry => entry.1 = addr) ∧
      (last.trace.Pairwise fun first second => ¬ first.Overtakes second) ∧
      last.tracker.stats.writeQueueInc = (acceptedBy last.trace).length ∧
      0 ≤ last.balance ∧
      last.balance = ∑ addr ∈ Finset.range last.tracker.fresh,
        ((last.tracker.heap addr).queued.length : Int) := by
  -- What was counted in and neither out nor returned is ready.
  have explained : last.Explained :=
    Runs.invariant (fun _ _ _ before _ taken => before.step taken) (.start config)
      Runs.along_true reached
  have balance : last.balance = last.tracker.live.length := by
    have inc := explained.inc
    have dec := explained.dec
    unfold ReadyRun.balance
    omega
  refine ⟨explained.serves, explained.serves.sublist, ?_, explained.inOrder, explained.inc,
    by omega, ?_⟩
  · intro addr kept
    exact explained.serves.complete kept
  · rw [balance, length_live explained.ready, Nat.cast_sum]

/-- Of two ready requests the first is given back, the second returned. -/
theorem readyQueue_fifo_withdrawn : ∃ last : ReadyRun Unit,
    Runs.run readyStep (.start ⟨3, 3, 1⟩) [.track ⟨[], 5, 1, 0, false⟩, .track ⟨[], 6, 2, 0, false⟩,
        .enqueueReadyWrite 0 ⟨[], 5, 1, 0, false⟩, .enqueueReadyWrite 1 ⟨[], 6, 2, 0, false⟩,
        .release 0, .pop] = some last ∧
      (returnedBy last.trace).map Prod.fst = [1] ∧ (acceptedBy last.trace).map Prod.fst = [0, 1] ∧
      (last.trace.Pairwise fun first second => ¬ first.Overtakes second) ∧ 0 ≤ last.balance := by
  obtain ⟨last, reached, returned, accepted⟩ : ∃ last : ReadyRun Unit,
      Runs.run readyStep (.start ⟨3, 3, 1⟩) [.track ⟨[], 5, 1, 0, false⟩,
        .track ⟨[], 6, 2, 0, false⟩, .enqueueReadyWrite 0 ⟨[], 5, 1, 0, false⟩,
        .enqueueReadyWrite 1 ⟨[], 6, 2, 0, false⟩, .release 0, .pop] = some last ∧
      (returnedBy last.trace).map Prod.fst = [1] ∧ (acceptedBy last.trace).map Prod.fst = [0, 1] :=
    ⟨_, rfl, rfl, rfl⟩
  obtain ⟨-, -, -, inOrder, -, balanced, -⟩ := readyQueue_fifo ⟨3, 3, 1⟩ reached
  exact ⟨last, reached, returned, accepted, inOrder, balanced⟩

end PgWalk
