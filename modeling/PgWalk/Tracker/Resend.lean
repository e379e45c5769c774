import PgWalk.Tracker.Exactness
import PgWalk.Tracker.Ready

/-! Requests that are sent again while nothing is retried: each is handed to the writers once. -/

namespace PgWalk

variable {V : Type}

/-- The request that a call makes the tracker accept, if it does. -/
def acceptedBy (t : PGBufferedLSNTracker V) : TrackerOp V → List (WriteRequest V)
  | .add req => if t.accepts req.lsn then [req] else []
  | _ => []

/-- The write that a call hands to the writers, if it does. -/
def poppedBy (t : PGBufferedLSNTracker V) : TrackerOp V → List (WriteRequest V)
  | .popRound => (t.popRound.bind Prod.fst).toList
  | _ => []

/-- A tracker with the requests accepted and the writes handed out. -/
structure Deliveries (V : Type) where
  tracker : PGBufferedLSNTracker V
  accepted : List (WriteRequest V)
  popped : List (WriteRequest V)

namespace Deliveries

def start (config : RetryConfig) : Deliveries V := ⟨.newLSNTracker config, [], []⟩

variable (state : Deliveries V) (op : TrackerOp V)

def step : Option (Deliveries V) :=
  (trackerStep state.tracker op).map fun next =>
    ⟨next, state.accepted ++ acceptedBy state.tracker op, state.popped ++ poppedBy state.tracker op⟩

/-- Requests have positive positions, and no failure is reported. -/
def Unfailing : Prop :=
  Admissible state.tracker op ∧ ∀ resp setTimer, op ≠ .onError resp setTimer

/-- No failure is filed for any request. -/
def Unfailed : Prop := ∀ addr, (state.tracker.heap addr).failures = []

/-- No timer is set, and no request is sent again while failures of it are filed. -/
def Unretried : Prop :=
  Admissible state.tracker op ∧ match op with
  | .add req => ∀ addr, state.tracker.findTrackedWrite req.lsn = some addr →
    (state.tracker.heap addr).failures = []
  | .onError _ _ => ∀ next, trackerStep state.tracker op = some next →
    next.retryWheel = state.tracker.retryWheel
  | _ => True

/-- What holds while nothing is retried. -/
structure InOrder (state : Deliveries V) : Prop where
  exact : ∃ ledger, Exact state.tracker ledger
  ready : state.tracker.Ready
  untimed : state.tracker.retryWheel = []
  known : ∀ req ∈ state.accepted, 0 < req.lsn ∧ state.tracker.accepts req.lsn = false
  distinct : (state.accepted.map WriteRequest.lsn).Nodup
  order : ∃ gone, state.accepted =
      gone ++ state.tracker.readyQueue.items.map ReadyWriteEntry.write ∧
    state.popped.Sublist gone

namespace InOrder

open PGBufferedLSNTracker List Option

variable {state next : Deliveries V}

theorem start (config : RetryConfig) : InOrder (Deliveries.start config : Deliveries V) where
  exact := ⟨[], Exact.start config⟩
  ready := Ready.start config
  untimed := rfl
  known := by simp [Deliveries.start]
  distinct := nodup_nil
  order := ⟨[], rfl, List.Sublist.refl _⟩

theorem acks (inv : InOrder state) {t : PGBufferedLSNTracker V} (exact : ∃ ledger, Exact t ledger)
    (acks : Acks state.tracker t)
    (known : ∀ lsn, 0 < lsn → state.tracker.accepts lsn = false → t.accepts lsn = false) :
    InOrder ⟨t, state.accepted, state.popped⟩ where
  exact := exact
  ready := inv.ready.settles acks.toSettles
  untimed := acks.timers.trans inv.untimed
  known req member := ⟨(inv.known req member).1,
    known req.lsn (inv.known req member).1 (inv.known req member).2⟩
  distinct := inv.distinct
  order := by rw [acks.ready]; exact inv.order

/-- Every call after which nothing is retried keeps the deliveries in order. -/
theorem step (inv : InOrder state) {op : TrackerOp V} (unretried : state.Unretried op)
    (taken : state.step op = some next) : InOrder next := by
  -- A request is tracked once filed, and no timer has been set.
  obtain ⟨ledger, exact⟩ := inv.exact
  obtain ⟨admissible, quiet⟩ := unretried
  obtain ⟨after, called, rfl⟩ := map_eq_some_iff.mp taken
  have later : ∃ ledger, Exact after ledger := ⟨_, (exact.step admissible called).1⟩
  have known : ∀ lsn, 0 < lsn → state.tracker.accepts lsn = false → after.accepts lsn = false :=
    fun _ positive => exact.known_step admissible called positive
  have stillKnown : ∀ req ∈ state.accepted, 0 < req.lsn ∧ after.accepts req.lsn = false :=
    fun req member => ⟨(inv.known req member).1, (inv.known req member).elim (known _)⟩
  cases op with
  | add req =>
    cases called
    cases add_cases exact.wf req with
    | known known same =>
      have none : acceptedBy state.tracker (.add req) = [] := if_neg (by simp [known])
      simp only [same, none, poppedBy, append_nil]
      exact inv
    | again addr _ found failed _ _ => exact absurd (quiet addr found) failed
    | new accepted added =>
      simp only [acceptedBy, accepted, poppedBy, append_nil, if_true]
      have positive : 0 < req.lsn := admissible
      have filed : (state.tracker.add req).accepts req.lsn = false := by
        obtain ⟨tracked, -, -, wf⟩ := add_accepted exact.wf accepted
        have found : (state.tracker.add req).findTrackedWrite req.lsn ≠ none := fun none =>
          wf.findTrackedWrite_eq_none.mp none _
            (by rw [tracked]; exact (Frontier.mem_file CommitPoint.lsn).mpr (.inl rfl)) rfl
        simp [accepts, isSome_iff_ne_none, found]
      refine ⟨later, added.ready inv.ready, added.timers.trans inv.untimed,
        fun other member => ?_, ?_, ?_⟩
      · rcases mem_append.mp member with earlier | last
        · exact stillKnown other earlier
        · obtain rfl := mem_singleton.mp last
          exact ⟨positive, filed⟩
      · -- A position that was accepted before is known and not accepted again.
        rw [map_append, nodup_append]
        refine ⟨inv.distinct, by simp, ?_⟩
        intro lsn used other same
        obtain ⟨earlier, member, rfl⟩ := List.mem_map.mp used
        obtain rfl : other = req.lsn := by simpa using same
        intro clash
        have before := (inv.known earlier member).2
        rw [clash, accepted] at before
        cases before
      · obtain ⟨gone, split, sublist⟩ := inv.order
        refine ⟨gone, ?_, sublist⟩
        rw [added.items, split]
        simp
  | addEmpty lsn xid =>
    cases called
    simp only [acceptedBy, poppedBy, append_nil]
    cases addEmpty_cases exact.wf lsn xid with
    | known acks _ => exact inv.acks later acks known
    | new tw queued pending failures items timers seq fresh config channel heap tracking ready =>
      exact ⟨later, ready inv.ready, timers.trans inv.untimed, stillKnown, inv.distinct,
        by rw [items]; exact inv.order⟩
  | onSuccess resp =>
    cases called
    simp only [acceptedBy, poppedBy, append_nil]
    exact inv.acks later (Acks.onSuccess _ resp) known
  | onError resp setTimer =>
    simp only [acceptedBy, poppedBy, append_nil]
    have timers := quiet after called
    obtain ⟨items, fresh, heap⟩ := onError_frame exact.wf (toOption_eq_some.mp called)
    exact ⟨later, inv.ready.of_heap items timers fresh heap, timers.trans inv.untimed, stillKnown,
      inv.distinct, by rw [items]; exact inv.order⟩
  | onRetryTimer key =>
    simp [trackerStep, onRetryTimer, inv.untimed] at called
  | maxAcknowledged =>
    cases called
    simp only [acceptedBy, poppedBy, append_nil]
    exact inv.acks later (Acks.advance _) known
  | popRound =>
    obtain ⟨⟨write, after⟩, popped, rfl⟩ := map_eq_some_iff.mp called
    obtain ⟨entry, taken⟩ := inv.ready.popRound_cases popped
    obtain ⟨gone, split, sublist⟩ := inv.order
    simp only [acceptedBy, poppedBy, popped, append_nil, bind_some]
    refine ⟨later, inv.ready.popped taken, taken.timers.trans inv.untimed, stillKnown,
      inv.distinct, gone ++ [entry.write], ?_, ?_⟩
    · rw [split, taken.items]
      simp
    · -- The element's own write is handed out, or nothing is.
      rcases taken.outcome with ⟨-, rfl, -⟩ | ⟨-, rfl, -⟩
      · simpa using sublist.trans (sublist_append_left gone [entry.write])
      · exact sublist.append (List.Sublist.refl _)

end InOrder

open PGBufferedLSNTracker in
/-- While nothing fails, no failure is filed. -/
theorem unfailed_step {state next : Deliveries V} (inv : InOrder state)
    (unfailed : state.Unfailed) {op : TrackerOp V} (unfailing : state.Unfailing op)
    (taken : state.step op = some next) : next.Unfailed := by
  -- Only an answer for a failed entry files a failure.
  intro addr
  obtain ⟨ledger, exact⟩ := inv.exact
  obtain ⟨after, called, rfl⟩ := Option.map_eq_some_iff.mp taken
  have acked {t : PGBufferedLSNTracker V} (acks : Acks state.tracker t) :
      (t.heap addr).failures = [] := by
    rcases (acks.failures addr).failures with same | ⟨none, -⟩
    · exact same.trans (unfailed addr)
    · exact none
  cases op with
  | add req =>
    cases called
    cases add_cases exact.wf req with
    | known _ same =>
      rw [same]
      exact unfailed addr
    | again addr _ _ failed _ _ => exact absurd (unfailed addr) failed
    | new _ added =>
      rw [added.heap]
      by_cases here : addr = state.tracker.fresh
      · simp [here, TrackedWriteRequest.newTrackedWriteRequest]
      · simpa [here] using unfailed addr
  | addEmpty lsn xid =>
    cases called
    cases addEmpty_cases exact.wf lsn xid with
    | known acks _ => exact acked acks
    | new tw _ _ failures _ _ _ _ _ _ heap _ _ =>
      rw [heap]
      by_cases here : addr = state.tracker.fresh
      · simp [here, failures]
      · simpa [here] using unfailed addr
  | onSuccess resp =>
    cases called
    exact acked (Acks.onSuccess _ resp)
  | onError resp setTimer => exact absurd rfl (unfailing.2 resp setTimer)
  | onRetryTimer key => simp [trackerStep, onRetryTimer, inv.untimed] at called
  | maxAcknowledged =>
    cases called
    exact acked (Acks.advance _)
  | popRound =>
    obtain ⟨⟨write, after⟩, popped, rfl⟩ := Option.map_eq_some_iff.mp called
    obtain ⟨entry, taken⟩ := inv.ready.popRound_cases popped
    rcases taken.outcome with ⟨-, -, heap⟩ | ⟨-, -, heap⟩
    · rw [heap]
      exact unfailed addr
    · rw [heap]
      by_cases here : addr = entry.trackedWrite
      · simpa [here] using unfailed entry.trackedWrite
      · simpa [here] using unfailed addr

/-- Where nothing fails, nothing is retried. -/
theorem Unfailing.unretried {state : Deliveries V} {op : TrackerOp V}
    (unfailing : state.Unfailing op) (unfailed : state.Unfailed) : state.Unretried op := by
  refine ⟨unfailing.1, ?_⟩
  cases op with
  | add req => exact fun addr _ => unfailed addr
  | onError resp setTimer => exact absurd rfl (unfailing.2 resp setTimer)
  | _ => trivial

end Deliveries

open Deliveries PGBufferedLSNTracker

/--
While nothing fails, each accepted request is handed to the writers at most once, in the order in
which the requests were first accepted, and sending one again changes nothing at all.
-/
theorem resent_written_once {config : RetryConfig} {ops : List (TrackerOp V)}
    {state : Deliveries V}
    (unfailing : Runs.Along step Unfailing (start config) ops)
    (reached : Runs.run step (start config) ops = some state) :
    state.popped.Sublist state.accepted ∧
      (state.accepted.map WriteRequest.lsn).Nodup ∧ (state.popped.map WriteRequest.lsn).Nodup ∧
      ∀ req, req.lsn ∈ state.accepted.map WriteRequest.lsn →
        state.tracker.add req = state.tracker := by
  -- It could only be made ready again after a failure.
  obtain ⟨inv, unfailed⟩ : state.InOrder ∧ state.Unfailed :=
    @Runs.invariant _ _ _ _ (fun state => InOrder state ∧ Unfailed state)
      (fun _ _ _ inv unfailing taken => ⟨inv.1.step (unfailing.unretried inv.2) taken,
        unfailed_step inv.1 inv.2 unfailing taken⟩) _ _ _ ⟨.start config, fun _ => rfl⟩
      unfailing reached
  obtain ⟨gone, split, sublist⟩ := inv.order
  have inOrder : state.popped.Sublist state.accepted := by
    rw [split]
    exact sublist.trans (List.sublist_append_left _ _)
  refine ⟨inOrder, inv.distinct, (inOrder.map _).nodup inv.distinct, ?_⟩
  intro req resent
  obtain ⟨first, member, same⟩ := List.mem_map.mp resent
  obtain ⟨ledger, exact⟩ := inv.exact
  cases add_cases exact.wf req with
  | new accepted _ => simp [← same, (inv.known first member).2] at accepted
  | known _ unchanged => exact unchanged
  | again addr _ _ failed _ _ => exact absurd (unfailed addr) failed

namespace Sample

/-- A request sent twice before it is taken and once after its write. -/
def resends : List (TrackerOp Nat) :=
  [.add (emptyRequest 5 1), .add (emptyRequest 5 1), .popRound, .add (emptyRequest 5 1),
    .onSuccess ⟨[⟨5, 1, 0, makeTableName "public" "users"⟩]⟩, .add (emptyRequest 5 1)]

end Sample

open Sample

/-- A request sent four times is taken once. -/
theorem resent_written_once_four_times :
    ∃ state, Runs.run step (start retryConfig) resends =
        some state ∧ state.popped.Sublist state.accepted ∧
      state.popped = [emptyRequest 5 1] := by
  obtain ⟨state, reached, once⟩ : ∃ state, Runs.run step
      (start retryConfig) resends = some state ∧ state.popped = [emptyRequest 5 1] := ⟨_, rfl, rfl⟩
  have add : ∀ state : Deliveries Nat, state.Unfailing (.add (emptyRequest 5 1)) :=
    fun _ => ⟨show 0 < 5 by decide, fun _ _ => by simp⟩
  have unfailing : Runs.Along step Unfailing
      (start retryConfig) resends :=
    .cons (add _) rfl (.cons (add _) rfl (.cons ⟨trivial, fun _ _ => by simp⟩ rfl
      (.cons (add _) rfl (.cons ⟨trivial, fun _ _ => by simp⟩ rfl (.last (add _))))))
  exact ⟨state, reached, (resent_written_once unfailing reached).1, once⟩

end PgWalk
